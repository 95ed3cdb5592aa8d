import CodeSmell.Proofs.Facts.Moves
import CodeSmell.Proofs.Facts.NamespaceForms

/-!
# A namespace inside another one for a namespace with a dotted name

* `NamespaceBlock` : the parts of a namespace with a body; `NamespaceBlock.tour_eq` says that a tour of it
  adds its name and tours its members;
* `NamespaceSplit` : a namespace with a dotted name, and two with the parts of this name, one inside the
  other, around what it has in it;
* `SplitSomewhere` : two files that differ by such a split;
* `Findings.Parallel` : what has been found in two files is the same but for where it is and for the
  declarations in front. A tour of what has only been moved keeps it so (`Parallel.tour_of`);
* `Findings.OneMore`, `SplitSomewhere.walk` : split somewhere, a file declares one namespace more.
-/

namespace CodeSmell

open Syntax

/-- The parts of a namespace with a body. What is in its name declares it. -/
structure NamespaceBlock (n : Node) where
  keyword : List Node
  name : Node
  gap : List Node
  body : Node
  trailing : List Node
  opening : List Node
  members : List Node
  closing : List Node
  kind : n.kind = "namespace_declaration"
  children : n.children = keyword ++ name :: gap ++ body :: trailing
  name_field : name.field = some "name"
  name_parts : ∀ v ∈ name.places, v.node.construct = .other ∨
    v.node.construct = .identifier ∧ v.node.start ∈ name.identifiersUnder.map (·.start)
  body_kind : body.kind = "declaration_list"
  body_children : body.children = opening ++ members ++ closing
  marks : ∀ m ∈ keyword ++ gap ++ trailing ++ opening ++ closing, m.IsMark
  members_field : ∀ m ∈ members, m.field = none

namespace Findings

/-! ## Tours of names -/

theorem visit_of_declared {f : Findings} {p : Pending} (h : p.node.construct = .identifier)
    (hsite : p.node.start ∈ f.sites) : f.visit p = f := by
  have hquery : (Construct.identifier == .query) = false := by decide
  have htype : (Construct.identifier == .typeParameter) = false := by decide
  have hfile : (Construct.identifier == .fileNamespace) = false := by decide
  have husing : (Construct.identifier == .usingDirective) = false := by decide
  unfold visit Node.sites referencesOf Node.introduced Node.namespaceDeclaration? Node.literal?
    Node.using? Node.attributeReference? Node.namespaceName?
  simp [h, hquery, htype, hfile, husing, hsite]

theorem tourAll_eq_self {f : Findings} {around ns : List Node} {scope : Scope}
    (h : ∀ n ∈ ns, f.tour around scope n = f) : f.tourAll around scope ns = f := by
  induction ns with
  | nil => rfl
  | cons n rest ih =>
    obtain ⟨hn, hrest⟩ := List.forall_mem_cons.mp h
    rw [tourAll, hn, ih hrest]

/-- Where all identifiers declare something, a tour finds nothing. -/
theorem tour_of_declared {f : Findings} {n : Node}
    (h : ∀ v ∈ n.places, v.node.construct = .other ∨
      v.node.construct = .identifier ∧ v.node.start ∈ f.sites) (around : List Node) (scope : Scope) :
    f.tour around scope n = f := by
  induction n using Node.parts_induction generalizing around with
  | step n ih =>
    rcases h _ (n.self_mem_placesFrom []) with hother | ⟨hid, hsite⟩
    · rw [tour_of_other hother]
      refine tourAll_eq_self fun c hc => ih c hc (fun v hv => ?_) _
      exact h ⟨v.node, v.ancestors ++ [n]⟩ (Node.mem_places_of_part hc hv)
    · have hinner : n.innerScope? scope (f.namespaceAt scope) = none := by
        rw [Node.innerScope?, show n.construct = .identifier from hid]
      rw [tour_eq, hinner]
      exact visit_of_declared hid hsite

end Findings

namespace NamespaceBlock

variable {n : Node} (b : NamespaceBlock n)

def fullName (outer : Option String) : String :=
  dotted outer (Text.compact b.name.text)

def nameSites : List Nat :=
  b.name.identifiersUnder.map (·.start)

include b in
theorem construct_eq : n.construct = .namespaceBlock := by
  rw [Node.construct, b.kind]
  rfl

theorem childByField?_name : n.childByField? "name" = some b.name := by
  have hkeyword : b.keyword.find? (·.field == some "name") = none :=
    Node.find?_name_eq_none fun m hm => (b.marks m (by simp [hm])).no_field
  have hname : (b.name.field == some "name") = true := by rw [b.name_field]; rfl
  rw [Node.childByField?, b.children, List.append_assoc, List.cons_append, List.find?_append, hkeyword,
    List.find?_cons, hname]
  rfl

theorem openedNamespace_eq (outer : Option String) :
    n.openedNamespace outer = some (b.fullName outer) := by
  rw [Node.openedNamespace, b.childByField?_name]
  rfl

def declaration (outer : Option String) : Declaration where
  name := b.fullName outer
  kind := .namespaceName
  position := b.name.position
  inNamespace := none
  container := none
  isOverride := false
  isExtension := false
  statements := none

/-- What has been found once it has been visited. -/
def visited (f : Findings) (outer : Option String) : Findings :=
  { f with declarations := f.declarations.push (b.declaration outer), sites := b.nameSites ++ f.sites }

theorem visit_eq (f : Findings) (around : List Node) (scope : Scope) :
    f.visit ⟨n, around, scope⟩ = b.visited f (f.namespaceAt scope) := by
  have hname : n.namespaceName? = some b.name := by
    rw [Node.namespaceName?, b.construct_eq]
    exact b.childByField?_name
  have hfile : (Construct.namespaceBlock == .fileNamespace) = false := by decide
  rw [Findings.visit_of_namespace (.inl b.construct_eq)]
  simp only [Node.namespaceDeclaration?, hname, b.construct_eq, hfile]
  simp [visited, declaration, fullName, nameSites]

/-- A tour of it adds its name, and tours its members in the namespace that it opens. -/
theorem tour_eq (f : Findings) (around : List Node) (scope : Scope) :
    f.tour around scope n =
      (b.visited f (f.namespaceAt scope)).tourAll (b.body :: n :: around)
        ⟨some (b.fullName (f.namespaceAt scope)), none⟩ b.members := by
  have hkeyword : ∀ m ∈ b.keyword, m.IsMark := fun m hm => b.marks m (by simp [hm])
  have hgap : ∀ m ∈ b.gap, m.IsMark := fun m hm => b.marks m (by simp [hm])
  have htrailing : ∀ m ∈ b.trailing, m.IsMark := fun m hm => b.marks m (by simp [hm])
  have hopening : ∀ m ∈ b.opening, m.IsMark := fun m hm => b.marks m (by simp [hm])
  have hclosing : ∀ m ∈ b.closing, m.IsMark := fun m hm => b.marks m (by simp [hm])
  have hinner : n.innerScope? scope (f.namespaceAt scope) =
      some ⟨some (b.fullName (f.namespaceAt scope)), none⟩ := by
    rw [Node.innerScope?, b.construct_eq, ← b.openedNamespace_eq]
  have hname : (b.visited f (f.namespaceAt scope)).tour (n :: around)
      ⟨some (b.fullName (f.namespaceAt scope)), none⟩ b.name =
        b.visited f (f.namespaceAt scope) := by
    refine Findings.tour_of_declared (fun v hv => (b.name_parts v hv).imp_right fun hname => ?_) _ _
    exact ⟨hname.1, List.mem_append_left _ hname.2⟩
  have hbody : b.body.construct = .other := by
    rw [Node.construct, b.body_kind]
    rfl
  rw [Findings.tour_eq, hinner, b.visit_eq, b.children]
  dsimp only
  rw [Findings.tourAll_append, Findings.tourAll_append, Findings.tourAll_marks hkeyword,
    Findings.tourAll, Findings.tourAll, hname, Findings.tourAll_marks hgap,
    Findings.tourAll_marks htrailing, Findings.tour_of_other hbody, b.body_children,
    Findings.tourAll_append, Findings.tourAll_append, Findings.tourAll_marks hopening,
    Findings.tourAll_marks hclosing]

theorem subject_body : b.body.subject = "" := by
  apply Node.subject_eq_empty (by simp [b.body_kind])
  intro m hm
  rw [b.body_children, List.mem_append, List.mem_append] at hm
  rcases hm with (hm | hm) | hm
  · exact (b.marks m (by simp [hm])).no_field
  · exact b.members_field m hm
  · exact (b.marks m (by simp [hm])).no_field

theorem alike_bodies {m : Node} (c : NamespaceBlock m) : b.body.Alike c.body where
  no_fields := by simp [b.body_kind, c.body_kind]
  no_events := by simp [b.body_kind, c.body_kind]
  subject_eq := b.subject_body.trans c.subject_body.symm

end NamespaceBlock

/-! ## Files that say the same -/

namespace Syntax.Node

theorem sites_moved (r : Move) {n : Node} {around around' : List Node}
    (h : (n.moved r).introduced around' = (n.introduced around).map (Introduction.moved r)) :
    (n.moved r).sites around' = (n.sites around).map r.start := by
  have hsites : ((n.introduced around).map (Introduction.moved r)).map (·.site.start) =
      ((n.introduced around).map (·.site.start)).map r.start := by
    rw [List.map_map, List.map_map]
    exact List.map_congr_left fun i _ => i.site.start_moved r
  have hname : (n.namespaceName?.toList.map (moved r)).flatMap identifiersUnder =
      (n.namespaceName?.toList.flatMap identifiersUnder).map (moved r) := by
    rw [List.flatMap_map, List.map_flatMap]
    exact List.flatMap_congr fun c _ => c.identifiersUnder_moved r
  unfold sites
  rw [h, hsites, namespaceName?_moved, toList_map_moved, hname, starts_moved, construct_moved,
    identifiersUnder_moved, starts_moved, List.map_append, List.map_append]
  split <;> rfl

theorem adrift_declarations_moved (r : Move) {n : Node} {around around' : List Node}
    (h : (n.moved r).introduced around' = (n.introduced around).map (Introduction.moved r))
    (scope : Scope) :
    (Place.declarations ⟨n.moved r, around'⟩ scope).map Declaration.adrift =
      (Place.declarations ⟨n, around⟩ scope).map Declaration.adrift := by
  have hnamespace := n.adrift_namespaceDeclaration?_moved r scope.inNamespace
  rw [Place.declarations, Place.declarations, List.map_append, List.map_append,
    ← Option.toList_map, ← Option.toList_map]
  refine congr (congrArg _ ?_) (congrArg _ hnamespace)
  rw [h, List.map_map, List.map_map, List.map_map]
  exact List.map_congr_left fun i _ => i.adrift_declaration_moved r scope

theorem names_referencesAt_moved (r : Move) (n : Node) {sites sites' : List Nat}
    (h : ∀ b, r.start b ∈ sites' ↔ b ∈ sites) (around around' : List Node) :
    (Place.referencesAt sites' ⟨n.moved r, around'⟩).map (·.name) =
      (Place.referencesAt sites ⟨n, around⟩).map (·.name) := by
  have hsite : sites'.contains (r.start n.start) = sites.contains n.start := by
    rw [Bool.eq_iff_iff, List.contains_iff_mem, List.contains_iff_mem]
    exact h n.start
  unfold Place.referencesAt
  dsimp only
  rw [construct_moved, start_moved, hsite, text_moved]
  split
  · split <;> rfl
  · rw [← Option.toList_map, ← Option.toList_map, n.name_attributeReference?_moved r]

end Syntax.Node

namespace Findings

/-- What has been found in a text and in another one is the same, but for where it is and for what was
declared in front of some point. -/
structure Parallel (r : Move) (front front' : List Declaration) (f g : Findings) : Prop where
  declarations : ∃ behind, f.declarations.toList.map Declaration.adrift = front ++ behind ∧
    g.declarations.toList.map Declaration.adrift = front' ++ behind
  usings : g.usings.toList.map UsingDirective.adrift = f.usings.toList.map UsingDirective.adrift
  references : g.references.toList.map (·.name) = f.references.toList.map (·.name)
  usesQuery : g.usesQuery = f.usesQuery
  sites : ∀ b, r.start b ∈ g.sites ↔ b ∈ f.sites
  fileNamespace : g.fileNamespace = f.fileNamespace

namespace Parallel

variable {r : Move} {front front' : List Declaration} {f g : Findings}

theorem namespaceAt_eq (h : Parallel r front front' f g) (scope : Scope) :
    g.namespaceAt scope = f.namespaceAt scope := by
  rw [namespaceAt, namespaceAt, h.fileNamespace]

/-- Two visits to what has been moved find the same, if it introduces the same. -/
theorem visit (h : Parallel r front front' f g) {n : Node} {around around' : List Node}
    (hsame : (n.moved r).introduced around' = (n.introduced around).map (Introduction.moved r))
    (scope : Scope) :
    Parallel r front front' (f.visit ⟨n, around, scope⟩) (g.visit ⟨n.moved r, around', scope⟩) where
  declarations := by
    obtain ⟨behind, hf, hg⟩ := h.declarations
    have hadrift := Node.adrift_declarations_moved r hsame (f.here ⟨n, around, scope⟩)
    have hhere : g.here ⟨n.moved r, around', scope⟩ = f.here ⟨n, around, scope⟩ := by
      rw [here, here, h.namespaceAt_eq]
    refine ⟨behind ++ (Place.declarations ⟨n, around⟩ (f.here ⟨n, around, scope⟩)).map
      Declaration.adrift, ?_, ?_⟩
    · rw [visit_declarations, List.map_append, hf, List.append_assoc]
      rfl
    · rw [visit_declarations, List.map_append, hg, List.append_assoc, hhere, ← hadrift]
      rfl
  usings := by
    rw [visit_usings, visit_usings, List.map_append, List.map_append, h.usings,
      ← Option.toList_map, ← Option.toList_map]
    exact congrArg (_ ++ Option.toList ·) (n.adrift_using?_moved r)
  references := by
    rw [visit_references, visit_references, List.map_append, List.map_append, h.references]
    refine congrArg (_ ++ ·) ?_
    exact n.names_referencesAt_moved r h.sites around around'
  usesQuery := by
    unfold Findings.visit
    dsimp only
    rw [h.usesQuery, Node.construct_moved]
  sites := by
    intro b
    have hsites : Place.sites ⟨n.moved r, around'⟩ = (Place.sites ⟨n, around⟩).map r.start :=
      Node.sites_moved r hsame
    rw [visit_sites, visit_sites, List.mem_append, List.mem_append, h.sites b]
    refine or_congr ?_ Iff.rfl
    change r.start b ∈ Place.sites ⟨n.moved r, around'⟩ ↔ b ∈ Place.sites ⟨n, around⟩
    rw [hsites]
    exact List.mem_map_of_injective fun _ _ => r.injective
  fileNamespace := by
    unfold Findings.visit
    dsimp only
    rw [Node.construct_moved, h.namespaceAt_eq, Node.openedNamespace_moved, h.fileNamespace]

/-- Trees that are toured one after the other find the same if each of them does. -/
theorem tourAll_of {around around' ns : List Node} {scope : Scope}
    (htour : ∀ n ∈ ns, ∀ f g : Findings, Parallel r front front' f g →
      Parallel r front front' (f.tour around scope n) (g.tour around' scope (n.moved r)))
    (h : Parallel r front front' f g) :
    Parallel r front front' (f.tourAll around scope ns)
      (g.tourAll around' scope (ns.map (Node.moved r))) := by
  induction ns generalizing f g with
  | nil => exact h
  | cons n rest ih =>
    obtain ⟨hn, hrest⟩ := List.forall_mem_cons.mp htour
    exact ih hrest (hn f g h)

/-- **A tour of what has been moved finds the same**, if it introduces the same with what is around it
there. -/
theorem tour_of {n : Node} {around around' : List Node}
    (hsame : ∀ v ∈ n.places,
      (v.node.moved r).introduced (v.ancestors.map (Node.moved r) ++ around') =
        (v.node.introduced (v.ancestors ++ around)).map (Introduction.moved r))
    (h : Parallel r front front' f g) (scope : Scope) :
    Parallel r front front' (f.tour around scope n) (g.tour around' scope (n.moved r)) := by
  induction n using Node.parts_induction generalizing f g around around' scope with
  | step n ih =>
    have hvisit := h.visit (hsame _ (n.self_mem_placesFrom [])) scope
    rw [tour_eq, tour_eq, h.namespaceAt_eq, Node.innerScope?_moved]
    cases n.innerScope? scope (f.namespaceAt scope) with
    | none => exact hvisit
    | some inner =>
      dsimp only
      rw [Node.children_moved]
      refine tourAll_of (fun c hc f g hfg => ih c hc (fun v hv => ?_) hfg inner) hvisit
      have hplace := hsame _ (Node.mem_places_of_part hc hv)
      rwa [List.map_append, List.append_assoc, List.append_assoc] at hplace

end Parallel

end Findings

/-- What stands directly in a file or in a namespace: it stands under no field, and is no accessor. -/
structure Syntax.Node.IsMember (n : Node) : Prop where
  no_accessor : n.construct ≠ .accessor
  no_field : n.field = none

theorem Syntax.Node.subject_moved (r : Move) (n : Node) : (n.moved r).subject = n.subject := by
  rw [subject, subject, kind_moved, childByField?_moved]
  cases n.childByField? "name" with
  | none => rfl
  | some name => simp only [Option.map_some, text_moved]

/-- What has been moved introduces the same, in whichever of two nodes that are the same to it. -/
theorem Syntax.Node.Alike.introduced_moved {p q : Node} (h : p.Alike q) (r : Move) {n : Node}
    {inner : List Node} (hself : inner = [] → n.construct ≠ .accessor) (rest rest' : List Node) :
    (n.moved r).introduced (inner.map (moved r) ++ q :: rest') =
      (n.introduced (inner ++ p :: rest)).map (Introduction.moved r) := by
  have hmoved : (p.moved r).Alike q :=
    { no_fields := by rw [kind_moved]; exact h.no_fields
      no_events := by rw [kind_moved]; exact h.no_events
      subject_eq := (p.subject_moved r).trans h.subject_eq }
  have hself' : inner.map (moved r) = [] → (n.moved r).construct ≠ .accessor := by
    intro hnil
    rw [construct_moved]
    exact hself (List.map_eq_nil_iff.mp hnil)
  rw [hmoved.introduced_append hself' (rest.map (moved r)) rest', ← n.introduced_moved r,
    List.map_append, List.map_cons]

namespace Findings

/-- Members find the same where they have been moved to. -/
theorem Parallel.members {r : Move} {front front' : List Declaration} {f g : Findings}
    (h : Parallel r front front' f g) {p q : Node} (halike : p.Alike q) {ns : List Node}
    (hns : ∀ n ∈ ns, n.IsMember) (rest rest' : List Node) (scope : Scope) :
    Parallel r front front' (f.tourAll (p :: rest) scope ns)
      (g.tourAll (q :: rest') scope (ns.map (Node.moved r))) := by
  refine Parallel.tourAll_of (fun n hn f g hfg => hfg.tour_of (fun v hv => ?_) scope) h
  refine halike.introduced_moved r (fun hnil => ?_) rest rest'
  rw [Node.node_eq_of_ancestors_eq_nil hv hnil]
  exact (hns n hn).no_accessor

/-- What has been found in a text and in another one is the same, but for where it is and for one
namespace that only the other declares, in front of one inside it that both declare. -/
def OneMore (r : Move) (f g : Findings) : Prop :=
  ∃ front more full, Parallel r (front ++ [full]) (front ++ [more, full]) f g ∧
    more.kind = .namespaceName ∧ full.kind = .namespaceName ∧
      ∃ name, full.name = more.name ++ "." ++ name

theorem OneMore.members {r : Move} {f g : Findings} (h : OneMore r f g) {p q : Node}
    (halike : p.Alike q) {ns : List Node} (hns : ∀ n ∈ ns, n.IsMember) (rest rest' : List Node)
    (scope : Scope) :
    OneMore r (f.tourAll (p :: rest) scope ns)
      (g.tourAll (q :: rest') scope (ns.map (Node.moved r))) := by
  obtain ⟨front, more, full, hparallel, hkinds⟩ := h
  exact ⟨front, more, full, hparallel.members halike hns rest rest' scope, hkinds⟩

end Findings

/-! ## Splitting a namespace -/

/-- A namespace with a dotted name, and two with the parts of this name, one inside the other, with what
it has in it. -/
structure NamespaceSplit (r : Move) (whole outer : Node) where
  dotted : NamespaceBlock whole
  around : NamespaceBlock outer
  inner : Node
  inside : NamespaceBlock inner
  around_members : around.members = [inner]
  inside_members : inside.members = dotted.members.map (Node.moved r)
  name : Text.compact dotted.name.text =
    Text.compact around.name.text ++ "." ++ Text.compact inside.name.text
  nameSites : dotted.nameSites.map r.start = around.nameSites ++ inside.nameSites
  members : ∀ m ∈ dotted.members, m.IsMember

/-- Two namespaces of the same name. -/
structure SameNamespace (r : Move) {n m : Node} (b : NamespaceBlock n) (c : NamespaceBlock m) :
    Prop where
  name : Text.compact c.name.text = Text.compact b.name.text
  nameSites : c.nameSites = b.nameSites.map r.start

/-- Two files, or two namespaces in them, that differ by the split of a namespace. Whatever is around it
has been moved. -/
inductive SplitSomewhere (r : Move) : Node → Node → Prop
  | here {whole outer : Node} (split : NamespaceSplit r whole outer) : SplitSomewhere r whole outer
  | inFile {n m part part' : Node} {before after : List Node}
      (kinds : n.kind = "compilation_unit" ∧ m.kind = "compilation_unit")
      (children : n.children = before ++ part :: after)
      (children' : m.children =
        before.map (Node.moved r) ++ part' :: after.map (Node.moved r))
      (members : ∀ c ∈ before ++ after, c.IsMember)
      (no_field : part.field = none ∧ part'.field = none)
      (split : SplitSomewhere r part part') : SplitSomewhere r n m
  | inBlock {n m part part' : Node} {before after : List Node} (b : NamespaceBlock n)
      (c : NamespaceBlock m) (same : SameNamespace r b c)
      (children : b.members = before ++ part :: after)
      (children' : c.members =
        before.map (Node.moved r) ++ part' :: after.map (Node.moved r))
      (members : ∀ x ∈ before ++ after, x.IsMember)
      (split : SplitSomewhere r part part') : SplitSomewhere r n m

/-! ## Tours of files with a split -/

theorem dotted_dotted (outer : Option String) (first second : String) :
    dotted (some (dotted outer first)) second = dotted outer (first ++ "." ++ second) := by
  cases outer with
  | none => rfl
  | some outer => simp only [dotted, String.append_assoc]

namespace NamespaceBlock

variable {r : Move} {n m : Node} (b : NamespaceBlock n) {f g : Findings}

theorem map_adrift_visited (f : Findings) (outer : Option String) :
    (b.visited f outer).declarations.toList.map Declaration.adrift =
      f.declarations.toList.map Declaration.adrift ++ [(b.declaration outer).adrift] := by
  simp [visited]

/-- Two namespaces of one name declare the same. -/
theorem adrift_declaration_eq (c : NamespaceBlock m) {outer outer' : Option String}
    (h : c.fullName outer' = b.fullName outer) :
    (c.declaration outer').adrift = (b.declaration outer).adrift := by
  simp only [declaration, Declaration.adrift, h]

end NamespaceBlock

namespace NamespaceSplit

variable {r : Move} {whole outer : Node} (s : NamespaceSplit r whole outer)

theorem fullName_eq (namespaceOutside : Option String) :
    s.inside.fullName (some (s.around.fullName namespaceOutside)) =
      s.dotted.fullName namespaceOutside := by
  rw [NamespaceBlock.fullName, NamespaceBlock.fullName, NamespaceBlock.fullName, dotted_dotted, s.name]

/-- Once the names have been found, the one in front is all that is found more. -/
theorem parallel_visited {f g : Findings} (h : Findings.Parallel r [] [] f g) (space : Option String) :
    ∃ front, Findings.Parallel r (front ++ [(s.dotted.declaration space).adrift])
      (front ++ [(s.around.declaration space).adrift, (s.dotted.declaration space).adrift])
      (s.dotted.visited f space)
      (s.inside.visited (s.around.visited g space) (some (s.around.fullName space))) := by
  obtain ⟨front, hf, hg⟩ := h.declarations
  refine ⟨front, { h with declarations := ⟨[], ?_, ?_⟩, sites := fun b => ?_ }⟩
  · rw [s.dotted.map_adrift_visited, hf, List.nil_append, List.append_nil]
  · rw [s.inside.map_adrift_visited, s.around.map_adrift_visited, hg, List.nil_append,
      List.append_nil, s.dotted.adrift_declaration_eq s.inside (s.fullName_eq space),
      List.append_assoc]
    rfl
  · have hnames : r.start b ∈ s.around.nameSites ++ s.inside.nameSites ↔ b ∈ s.dotted.nameSites := by
      rw [← s.nameSites]
      exact List.mem_map_of_injective fun _ _ => r.injective
    simp only [NamespaceBlock.visited, List.mem_append, h.sites b, ← hnames]
    tauto

include s in
/-- Split, a namespace adds what it did and the part of its name in front. -/
theorem tour {f g : Findings} (h : Findings.Parallel r [] [] f g) (rest rest' : List Node)
    (scope : Scope) :
    Findings.OneMore r (f.tour rest scope whole) (g.tour rest' scope outer) := by
  let space := f.namespaceAt scope
  let name := s.around.fullName space
  have hspace : g.namespaceAt scope = space := h.namespaceAt_eq scope
  have hinner : ∀ found : Findings, found.namespaceAt ⟨some name, none⟩ = some name := fun _ => rfl
  have hfull : s.inside.fullName (some name) = s.dotted.fullName space := s.fullName_eq space
  rw [s.dotted.tour_eq, s.around.tour_eq, hspace, s.around_members, Findings.tourAll,
    Findings.tourAll, s.inside.tour_eq, hinner, hfull, s.inside_members]
  obtain ⟨front, hvisited⟩ := s.parallel_visited h space
  refine Findings.OneMore.members ⟨front, _, _, hvisited, rfl, rfl, ?_⟩
    (s.dotted.alike_bodies s.inside) s.members _ _ _
  exact ⟨Text.compact s.inside.name.text, hfull.symm⟩

end NamespaceSplit

theorem SameNamespace.fullName_eq {r : Move} {n m : Node} {b : NamespaceBlock n}
    {c : NamespaceBlock m} (same : SameNamespace r b c) (outer : Option String) :
    c.fullName outer = b.fullName outer := by
  rw [NamespaceBlock.fullName, NamespaceBlock.fullName, same.name]

/-- Once the name of each has been found, two namespaces of the same name have found the same. -/
theorem SameNamespace.parallel_visited {r : Move} {n m : Node} {b : NamespaceBlock n}
    {c : NamespaceBlock m} (same : SameNamespace r b c) {f g : Findings}
    (h : Findings.Parallel r [] [] f g) (outer : Option String) :
    Findings.Parallel r [] [] (b.visited f outer) (c.visited g outer) := by
  obtain ⟨behind, hf, hg⟩ := h.declarations
  refine { h with
    declarations := ⟨behind ++ [(b.declaration outer).adrift], ?_, ?_⟩
    sites := fun x => ?_ }
  · rw [b.map_adrift_visited, hf, List.append_assoc]
  · rw [c.map_adrift_visited, hg, List.append_assoc, b.adrift_declaration_eq c (same.fullName_eq outer)]
  · simp only [NamespaceBlock.visited, List.mem_append, h.sites x, same.nameSites,
      List.mem_map_of_injective fun _ _ => r.injective]

namespace SplitSomewhere

variable {r : Move}

/-- Members around a split are the same, and so is what is found in them. -/
theorem tourAll {part part' : Node}
    (hpart : ∀ {f g : Findings}, Findings.Parallel r [] [] f g → ∀ rest rest' scope,
      Findings.OneMore r (f.tour rest scope part) (g.tour rest' scope part'))
    {p q : Node} (halike : p.Alike q) {before after : List Node}
    (hmembers : ∀ c ∈ before ++ after, c.IsMember) {f g : Findings}
    (h : Findings.Parallel r [] [] f g) (rest rest' : List Node) (scope : Scope) :
    Findings.OneMore r (f.tourAll (p :: rest) scope (before ++ part :: after))
      (g.tourAll (q :: rest') scope
        (before.map (Node.moved r) ++ part' :: after.map (Node.moved r))) := by
  obtain ⟨hbefore, hafter⟩ := List.forall_mem_append.mp hmembers
  rw [Findings.tourAll_append, Findings.tourAll_append, Findings.tourAll, Findings.tourAll]
  exact (hpart (h.members halike hbefore rest rest' scope) _ _ _).members halike hafter _ _ _

theorem subject_eq_empty {n part : Node} {before after : List Node}
    (hkind : n.kind = "compilation_unit") (hchildren : n.children = before ++ part :: after)
    (hmembers : ∀ c ∈ before ++ after, c.field = none) (hpart : part.field = none) :
    n.subject = "" := by
  apply Node.subject_eq_empty (by simp [hkind])
  rw [hchildren]
  obtain ⟨hbefore, hafter⟩ := List.forall_mem_append.mp hmembers
  exact List.forall_mem_append.mpr ⟨hbefore, List.forall_mem_cons.mpr ⟨hpart, hafter⟩⟩

/-- Two files with a split inside are the same to what stands in them. -/
theorem alike_files {n m part part' : Node} {before after : List Node}
    (kinds : n.kind = "compilation_unit" ∧ m.kind = "compilation_unit")
    (children : n.children = before ++ part :: after)
    (children' : m.children = before.map (Node.moved r) ++ part' :: after.map (Node.moved r))
    (members : ∀ c ∈ before ++ after, c.IsMember)
    (no_field : part.field = none ∧ part'.field = none) : n.Alike m := by
  have hfields : ∀ c ∈ before ++ after, c.field = none := fun c hc => (members c hc).no_field
  have hfields' : ∀ c ∈ before.map (Node.moved r) ++ after.map (Node.moved r), c.field = none := by
    rw [← List.map_append]
    exact List.forall_mem_map.mpr fun c hc => (c.field_moved r).trans (hfields c hc)
  have hsubject := subject_eq_empty kinds.1 children hfields no_field.1
  have hsubject' := subject_eq_empty kinds.2 children' hfields' no_field.2
  exact ⟨by simp [kinds], by simp [kinds], hsubject.trans hsubject'.symm⟩

/-- A tour of a file with a split finds one namespace more. -/
theorem tour {n m : Node} (s : SplitSomewhere r n m) {f g : Findings}
    (h : Findings.Parallel r [] [] f g) (rest rest' : List Node) (scope : Scope) :
    Findings.OneMore r (f.tour rest scope n) (g.tour rest' scope m) := by
  induction s generalizing f g rest rest' scope with
  | here split => exact split.tour h rest rest' scope
  | @inFile n m part part' before after kinds children children' members no_field split ih =>
    have hother : n.construct = .other ∧ m.construct = .other := by
      rw [Node.construct, Node.construct, kinds.1, kinds.2]
      exact ⟨rfl, rfl⟩
    have halike : n.Alike m := alike_files kinds children children' members no_field
    rw [Findings.tour_of_other hother.1, Findings.tour_of_other hother.2, children, children']
    exact tourAll (fun h rest rest' scope => ih h rest rest' scope) halike members h _ _ _
  | @inBlock n m part part' before after b c same children children' members split ih =>
    have hvisited := same.parallel_visited h (f.namespaceAt scope)
    rw [b.tour_eq, c.tour_eq, children, children', h.namespaceAt_eq, same.fullName_eq]
    exact tourAll (fun h rest rest' scope => ih h rest rest' scope) (b.alike_bodies c) members
      hvisited _ _ _

end SplitSomewhere

/-- **With a namespace split somewhere, a file says the same**, but for one namespace that it declares in
addition: that of the first parts of the name. -/
theorem SplitSomewhere.walk {r : Move} {n m : Node} (s : SplitSomewhere r n m) :
    Findings.OneMore r (Findings.walk n) (Findings.walk m) := by
  rw [Findings.walk_eq_tour, Findings.walk_eq_tour]
  refine s.tour ⟨⟨[], rfl, rfl⟩, rfl, rfl, rfl, fun b => ?_, rfl⟩ [] [] {}
  exact iff_of_false List.not_mem_nil List.not_mem_nil

end CodeSmell
