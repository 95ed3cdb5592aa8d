import CodeSmell.Proofs.Facts.Tour

/-!
# Namespaces with and without a body

* `NamespaceForms` : a file in which a namespace holds for the rest of it, and one in which the same
  namespace has the same in its body;
* `Findings.settled`, `Findings.settle` : what has been found, and a scope, with the namespace of
  the file made that of the scope;
* `tour_settled` : a tour of what both files share finds the same, if it starts so;
* `walk_forms` : the two files have the same in them.

The walk keeps the first namespace with what it has found, and passes the second one down with the
scope. A type or namespace in the file takes the one as it takes the other, so that below it there is
no difference left.
-/

namespace CodeSmell

open Syntax

namespace Syntax

/-! ## Places seen from further out -/

namespace Node

theorem mem_places_of_part {n c : Node} (hc : c ∈ n.children) {v : Place} (hv : v ∈ c.places) :
    ⟨v.node, v.ancestors ++ [n]⟩ ∈ n.places := by
  apply mem_placesFrom.mpr
  right
  refine ⟨c, hc, ?_⟩
  rw [placesFrom_eq_map]
  exact List.mem_map_of_mem hv

/-- Only the root of a tree has nothing around it there. -/
theorem node_eq_of_ancestors_eq_nil {n : Node} {v : Place} (hv : v ∈ n.places)
    (h : v.ancestors = []) : v.node = n := by
  rcases mem_placesFrom.mp hv with rfl | ⟨c, -, hv⟩
  · rfl
  · have hsuffix := suffix_ancestors hv
    rw [h] at hsuffix
    exact absurd (List.suffix_nil.mp hsuffix) (List.cons_ne_nil n [])

/-! ## What a declaration depends on -/

/-- What the accessors of a node are named after. -/
def subject (owner : Node) : String :=
  if owner.kind == "indexer_declaration" then "Item"
  else ((owner.childByField? "name").map (·.text)).getD ""

theorem find?_name_eq_none {ns : List Node} (h : ∀ n ∈ ns, n.field = none) :
    ns.find? (·.field == some "name") = none := by
  rw [List.find?_eq_none]
  intro n hn
  simp [h n hn]

theorem subject_eq_empty {owner : Node} (hkind : owner.kind ≠ "indexer_declaration")
    (h : ∀ n ∈ owner.children, n.field = none) : owner.subject = "" := by
  unfold subject childByField?
  rw [if_neg (by simpa using hkind), find?_name_eq_none h]
  rfl

/-- Two nodes that are the same to what stands in them: neither declares fields or events, and
accessors take the same name from them. -/
structure Alike (p q : Node) : Prop where
  no_fields : p.kind ≠ "field_declaration" ∧ q.kind ≠ "field_declaration"
  no_events : p.kind ≠ "event_field_declaration" ∧ q.kind ≠ "event_field_declaration"
  subject_eq : p.subject = q.subject

theorem Alike.variableIntroductions_eq {p q : Node} (h : Alike p q) (n : Node) :
    n.variableIntroductions (some q) = n.variableIntroductions (some p) := by
  obtain ⟨⟨hp, hq⟩, ⟨hp', hq'⟩, -⟩ := h
  unfold variableIntroductions
  simp [hp, hq, hp', hq']

theorem Alike.accessor_eq {p q : Node} (h : Alike p q) (n list : Node) (rest rest' : List Node) :
    n.accessor (list :: q :: rest') = n.accessor (list :: p :: rest) := by
  have haccessor : ∀ (owner : Node) (rest : List Node), n.accessor (list :: owner :: rest) =
      ((n.childByField? "name" <|>
        n.children.find? (accessorWords.contains ·.kind)).toList.map fun keyword =>
          ⟨n, keyword, keyword.text ++ "_" ++ owner.subject, .accessor⟩) := by
    intro owner rest
    unfold accessor
    cases n.childByField? "name" <|> n.children.find? (accessorWords.contains ·.kind) <;> rfl
  rw [haccessor, haccessor, h.subject_eq]

/-- What a node declares does not depend on what is further out than the nearest two nodes around
it, and hardly on these. -/
theorem Alike.introduced_append {p q : Node} (h : Alike p q) {n : Node} {inner : List Node}
    (hself : inner = [] → n.construct ≠ .accessor) (rest rest' : List Node) :
    n.introduced (inner ++ q :: rest') = n.introduced (inner ++ p :: rest) := by
  unfold introduced
  cases hconstruct : n.construct with
  | variableGroup =>
    cases inner with
    | nil => exact h.variableIntroductions_eq n
    | cons nearest inner => rfl
  | accessor =>
    cases inner with
    | nil => exact absurd hconstruct (hself rfl)
    | cons nearest inner =>
      cases inner with
      | nil => exact h.accessor_eq n nearest rest rest'
      | cons next inner => rfl
  | _ => rfl

end Node

end Syntax

/-! ## The two forms -/

/-- Punctuation, which says nothing. -/
structure Syntax.Node.IsMark (n : Node) : Prop where
  construct_other : n.construct = .other
  no_parts : n.children = []
  no_field : n.field = none

/-- A node with no namespace for the rest of the file in it. It is no accessor, for these stand in
lists of their own. -/
structure Syntax.Node.IsItem (n : Node) : Prop where
  no_fileNamespace : ∀ v ∈ n.places, v.node.construct ≠ .fileNamespace
  no_accessor : n.construct ≠ .accessor

/-- Two files with the same namespace: in `file` it holds for the rest of the file, and in `block`
it has a body, which has in it what follows the namespace in `file`. The grammar has fields for the
name and for the body of a namespace, and for nothing that stands directly in a file or in such a
body. -/
structure NamespaceForms (file block : Node) where
  /-- What stands before the namespace. -/
  before : List Node
  /-- The keyword and the name of the namespace. -/
  heading : List Node
  /-- What stands in the namespace. -/
  members : List Node
  /-- The namespace in `file`. -/
  directive : Node
  /-- The namespace in `block`, and its body. -/
  declaration : Node
  body : Node
  /-- The semicolon behind the name, the braces, and a semicolon behind them. -/
  semicolon : List Node
  opening : List Node
  closing : List Node
  trailing : List Node
  items : ∀ n ∈ before ++ heading ++ members, n.IsItem
  marks : ∀ n ∈ semicolon ++ opening ++ closing ++ trailing, n.IsMark
  no_field : ∀ n ∈ before ++ directive :: declaration :: members, n.field = none
  file_kind : file.kind = "compilation_unit"
  file_children : file.children = before ++ directive :: members
  directive_kind : directive.kind = "file_scoped_namespace_declaration"
  directive_children : directive.children = heading ++ semicolon
  block_kind : block.kind = "compilation_unit"
  block_children : block.children = before ++ [declaration]
  declaration_kind : declaration.kind = "namespace_declaration"
  declaration_children : declaration.children = heading ++ body :: trailing
  body_kind : body.kind = "declaration_list"
  body_field : body.field = some "body"
  body_children : body.children = opening ++ members ++ closing

namespace Findings

/-! ## The namespace of the file as that of a scope -/

/-- What has been found, without a namespace for the rest of the file. -/
def settled (f : Findings) : Findings :=
  { f with fileNamespace := none }

/-- A scope in the namespace that is in force there. -/
def settle (f : Findings) (scope : Scope) : Scope :=
  ⟨f.namespaceAt scope, scope.container⟩

theorem namespaceAt_settled (f : Findings) (scope : Scope) :
    f.settled.namespaceAt (f.settle scope) = f.namespaceAt scope := by
  unfold settled settle namespaceAt
  cases scope.inNamespace <;> cases f.fileNamespace <;> rfl

theorem namespaceAt_orElse (f : Findings) (scope : Scope) :
    (f.namespaceAt scope <|> f.fileNamespace) = f.namespaceAt scope := by
  unfold namespaceAt
  cases scope.inNamespace <;> cases f.fileNamespace <;> rfl

theorem openedNamespace_orElse (f : Findings) (scope : Scope) (n : Node) :
    (n.openedNamespace (f.namespaceAt scope) <|> f.fileNamespace) =
      n.openedNamespace (f.namespaceAt scope) := by
  unfold Node.openedNamespace
  cases n.childByField? "name" with
  | none => exact f.namespaceAt_orElse scope
  | some name => rfl

/-- The parts of a node that stands in a settled scope do so as well. -/
theorem innerScope?_settle (f : Findings) (scope : Scope) (n : Node) :
    n.innerScope? (f.settle scope) (f.namespaceAt scope) =
      (n.innerScope? scope (f.namespaceAt scope)).map f.settle := by
  -- types and namespaces take the namespace in force into their scope, which settles it
  have htype : ∀ container, f.settle ⟨f.namespaceAt scope, container⟩ =
      ⟨f.namespaceAt scope, container⟩ :=
    fun container => congrArg (Scope.mk · container) (f.namespaceAt_orElse scope)
  have hnamespace : f.settle ⟨n.openedNamespace (f.namespaceAt scope), none⟩ =
      ⟨n.openedNamespace (f.namespaceAt scope), none⟩ :=
    congrArg (Scope.mk · none) (f.openedNamespace_orElse scope n)
  unfold Node.innerScope?
  cases n.construct with
  | typeDeclaration kind => exact congrArg some (htype _).symm
  | namespaceBlock => exact congrArg some hnamespace.symm
  | fileNamespace => exact congrArg some hnamespace.symm
  | prefixed => cases n.negated? <;> rfl
  | _ => rfl

/-- Where a namespace for the rest of the file holds, its scope is settled, and the outermost scope
is settled to it. -/
theorem settle_opened {f : Findings} {opened : Option String} (h : f.fileNamespace = opened) :
    f.settle ⟨opened, none⟩ = ⟨opened, none⟩ ∧ f.settle {} = ⟨opened, none⟩ := by
  unfold settle namespaceAt
  rw [h]
  constructor
  · cases opened <;> rfl
  · rfl

theorem fileNamespace_visit {f : Findings} {p : Pending} (h : p.node.construct ≠ .fileNamespace) :
    (f.visit p).fileNamespace = f.fileNamespace := by
  have hfalse : (p.node.construct == .fileNamespace) = false := beq_eq_false_iff_ne.mpr h
  simp [visit, hfalse]

theorem settle_visit {f : Findings} {p : Pending} (h : p.node.construct ≠ .fileNamespace)
    (scope : Scope) : (f.visit p).settle scope = f.settle scope := by
  rw [settle, settle, namespaceAt, namespaceAt, fileNamespace_visit h]

/-- One visit finds the same in a settled scope. -/
theorem visit_settled {n : Node} {around around' : List Node}
    (hfile : n.construct ≠ .fileNamespace) (hsame : n.introduced around' = n.introduced around)
    (f : Findings) (scope : Scope) :
    f.settled.visit ⟨n, around', f.settle scope⟩ = (f.visit ⟨n, around, scope⟩).settled := by
  have hfalse : (n.construct == .fileNamespace) = false := beq_eq_false_iff_ne.mpr hfile
  have hsites : n.sites around' = n.sites around := by
    unfold Node.sites
    rw [hsame]
  unfold visit
  dsimp only
  rw [f.namespaceAt_settled scope, hsame, hsites, hfalse]
  rfl

/-! ## Tours in settled scopes -/

theorem tourAll_append (f : Findings) (around : List Node) (scope : Scope) (ns ms : List Node) :
    f.tourAll around scope (ns ++ ms) =
      (f.tourAll around scope ns).tourAll around scope ms := by
  induction ns generalizing f with
  | nil => rfl
  | cons n rest ih => rw [List.cons_append, tourAll, tourAll, ih]

theorem fileNamespace_tourAll {around ns : List Node} {scope : Scope}
    (h : ∀ n ∈ ns, ∀ f : Findings, (f.tour around scope n).fileNamespace = f.fileNamespace)
    (f : Findings) : (f.tourAll around scope ns).fileNamespace = f.fileNamespace := by
  induction ns generalizing f with
  | nil => rfl
  | cons n rest ih =>
    obtain ⟨hn, hrest⟩ := List.forall_mem_cons.mp h
    rw [tourAll, ih hrest, hn]

/-- A tour of a tree without a namespace for the rest of the file leaves that as it is. -/
theorem fileNamespace_tour {n : Node} (h : ∀ v ∈ n.places, v.node.construct ≠ .fileNamespace)
    (f : Findings) (around : List Node) (scope : Scope) :
    (f.tour around scope n).fileNamespace = f.fileNamespace := by
  induction n using Node.parts_induction generalizing f around scope with
  | step n ih =>
    have hself : n.construct ≠ .fileNamespace := h _ (n.self_mem_placesFrom [])
    rw [tour_eq]
    split
    case h_1 => exact fileNamespace_visit hself
    case h_2 inner _ =>
      rw [fileNamespace_tourAll, fileNamespace_visit hself]
      intro c hc f
      apply ih c hc
      intro v hv
      exact h ⟨v.node, v.ancestors ++ [n]⟩ (Node.mem_places_of_part hc hv)

/-- Trees that are toured one after the other find the same in a settled scope if each of them does
and none of them changes the namespace of the file. -/
theorem tourAll_settled_of {around around' ns : List Node} {scope : Scope}
    (hfile : ∀ n ∈ ns, ∀ f : Findings, (f.tour around scope n).fileNamespace = f.fileNamespace)
    (h : ∀ n ∈ ns, ∀ f : Findings,
      f.settled.tour around' (f.settle scope) n = (f.tour around scope n).settled) (f : Findings) :
    f.settled.tourAll around' (f.settle scope) ns = (f.tourAll around scope ns).settled := by
  induction ns generalizing f with
  | nil => rfl
  | cons n rest ih =>
    obtain ⟨hfile_n, hfile_rest⟩ := List.forall_mem_cons.mp hfile
    obtain ⟨hn, hrest⟩ := List.forall_mem_cons.mp h
    -- the next tree starts in the scope that is settled by what has been found before it
    have hkeep : (f.tour around scope n).settle scope = f.settle scope := by
      rw [settle, settle, namespaceAt, namespaceAt, hfile_n]
    rw [tourAll, tourAll, hn, ← hkeep]
    exact ih hfile_rest hrest _

/-- **A tour finds the same in a settled scope**, if every node of the tree declares the same with
what is around the tree there. -/
theorem tour_settled {n : Node} {around around' : List Node}
    (hfile : ∀ v ∈ n.places, v.node.construct ≠ .fileNamespace)
    (hsame : ∀ v ∈ n.places,
      v.node.introduced (v.ancestors ++ around') = v.node.introduced (v.ancestors ++ around))
    (f : Findings) (scope : Scope) :
    f.settled.tour around' (f.settle scope) n = (f.tour around scope n).settled := by
  induction n using Node.parts_induction generalizing f around around' scope with
  | step n ih =>
    have hfile_self : n.construct ≠ .fileNamespace := hfile _ (n.self_mem_placesFrom [])
    have hsame_self : n.introduced around' = n.introduced around :=
      hsame _ (n.self_mem_placesFrom [])
    have hfile_part : ∀ c ∈ n.children, ∀ v ∈ c.places, v.node.construct ≠ .fileNamespace := by
      intro c hc v hv
      exact hfile ⟨v.node, v.ancestors ++ [n]⟩ (Node.mem_places_of_part hc hv)
    have hsame_part : ∀ c ∈ n.children, ∀ v ∈ c.places,
        v.node.introduced (v.ancestors ++ n :: around') =
          v.node.introduced (v.ancestors ++ n :: around) := by
      intro c hc v hv
      have hplace := hsame _ (Node.mem_places_of_part hc hv)
      rwa [List.append_assoc, List.append_assoc] at hplace
    rw [tour_eq, tour_eq, f.namespaceAt_settled, f.innerScope?_settle,
      visit_settled hfile_self hsame_self]
    cases n.innerScope? scope (f.namespaceAt scope) with
    | none => rfl
    | some inner =>
      dsimp only [Option.map_some]
      rw [← settle_visit (p := ⟨n, around, scope⟩) hfile_self inner]
      apply tourAll_settled_of
      · intro c hc f
        exact fileNamespace_tour (hfile_part c hc) f _ _
      · intro c hc f
        exact ih c hc (hfile_part c hc) (hsame_part c hc) f inner

/-! ## Nodes that say nothing -/

theorem visit_of_other {f : Findings} {p : Pending} (h : p.node.construct = .other) :
    f.visit p = f := by
  have hquery : (Construct.other == .query) = false := by decide
  unfold visit Node.sites referencesOf Node.introduced Node.namespaceDeclaration? Node.literal?
    Node.using? Node.attributeReference? Node.namespaceName?
  simp [h, hquery]

theorem tour_of_other {f : Findings} {around : List Node} {scope : Scope} {n : Node}
    (h : n.construct = .other) :
    f.tour around scope n = f.tourAll (n :: around) scope n.children := by
  have hinner : n.innerScope? scope (f.namespaceAt scope) = some scope := by
    unfold Node.innerScope?
    rw [h]
  rw [tour_eq, hinner, visit_of_other h]

theorem tourAll_marks {f : Findings} {around : List Node} {scope : Scope} {ns : List Node}
    (h : ∀ n ∈ ns, n.IsMark) : f.tourAll around scope ns = f := by
  induction ns generalizing f with
  | nil => rfl
  | cons n rest ih =>
    obtain ⟨hn, hrest⟩ := List.forall_mem_cons.mp h
    rw [tourAll, tour_of_other hn.construct_other, hn.no_parts, tourAll, ih hrest]

/-- A namespace declares itself, names itself, and may put the rest of the file in it. -/
theorem visit_of_namespace {f : Findings} {p : Pending}
    (h : p.node.construct = .namespaceBlock ∨ p.node.construct = .fileNamespace) :
    f.visit p =
      { f with
        declarations := f.declarations ++
          (p.node.namespaceDeclaration? (f.namespaceAt p.scope)).toList
        sites :=
          (p.node.namespaceName?.toList.flatMap Node.identifiersUnder).map (·.start) ++ f.sites
        fileNamespace :=
          if p.node.construct == .fileNamespace then p.node.openedNamespace (f.namespaceAt p.scope)
          else f.fileNamespace } := by
  unfold visit Node.sites referencesOf Node.introduced Node.literal? Node.using?
    Node.attributeReference?
  rcases h with h | h
  · have hquery : (Construct.namespaceBlock == .query) = false := by decide
    have htype : (Construct.namespaceBlock == .typeParameter) = false := by decide
    simp [h, hquery, htype]
  · have hquery : (Construct.fileNamespace == .query) = false := by decide
    have htype : (Construct.fileNamespace == .typeParameter) = false := by decide
    simp [h, hquery, htype]

/-- Items find the same in a settled scope, in whichever of two nodes that are the same to them. -/
theorem tourAll_items {ns : List Node} (hns : ∀ n ∈ ns, n.IsItem) {p q : Node} (h : p.Alike q)
    (rest rest' : List Node) (f : Findings) (scope : Scope) :
    f.settled.tourAll (q :: rest') (f.settle scope) ns =
      (f.tourAll (p :: rest) scope ns).settled := by
  apply tourAll_settled_of
  · intro n hn f
    exact fileNamespace_tour (hns n hn).no_fileNamespace f _ scope
  · intro n hn f
    apply tour_settled (hns n hn).no_fileNamespace
    intro v hv
    apply h.introduced_append
    intro hnil
    rw [Node.node_eq_of_ancestors_eq_nil hv hnil]
    exact (hns n hn).no_accessor

theorem fileNamespace_items {ns : List Node} (hns : ∀ n ∈ ns, n.IsItem) (f : Findings)
    (around : List Node) (scope : Scope) :
    (f.tourAll around scope ns).fileNamespace = f.fileNamespace := by
  apply fileNamespace_tourAll
  intro n hn f
  exact fileNamespace_tour (hns n hn).no_fileNamespace f around scope

end Findings

namespace NamespaceForms

variable {file block : Node} (forms : NamespaceForms file block)
include forms

open Findings

/-! ## The nodes that differ -/

theorem items_before : ∀ n ∈ forms.before, n.IsItem :=
  fun n hn => forms.items n (List.mem_append_left _ (List.mem_append_left _ hn))

theorem items_heading : ∀ n ∈ forms.heading, n.IsItem :=
  fun n hn => forms.items n (List.mem_append_left _ (List.mem_append_right _ hn))

theorem items_members : ∀ n ∈ forms.members, n.IsItem :=
  fun n hn => forms.items n (List.mem_append_right _ hn)

theorem construct_file : file.construct = .other := by
  rw [Node.construct, forms.file_kind]
  rfl

theorem construct_block : block.construct = .other := by
  rw [Node.construct, forms.block_kind]
  rfl

theorem construct_body : forms.body.construct = .other := by
  rw [Node.construct, forms.body_kind]
  rfl

theorem construct_directive : forms.directive.construct = .fileNamespace := by
  rw [Node.construct, forms.directive_kind]
  rfl

theorem construct_declaration : forms.declaration.construct = .namespaceBlock := by
  rw [Node.construct, forms.declaration_kind]
  rfl

theorem marks_field : ∀ n ∈ forms.semicolon ++ forms.opening ++ forms.closing ++ forms.trailing,
    n.field = none :=
  fun n hn => (forms.marks n hn).no_field

/-- The namespace has one name in both forms. -/
theorem name_eq :
    forms.declaration.childByField? "name" = forms.directive.childByField? "name" := by
  have hsemicolon : forms.semicolon.find? (·.field == some "name") = none :=
    Node.find?_name_eq_none fun n hn => forms.marks_field n (by simp [hn])
  have htrailing : forms.trailing.find? (·.field == some "name") = none :=
    Node.find?_name_eq_none fun n hn => forms.marks_field n (by simp [hn])
  have hbody : (forms.body.field == some "name") = false := by
    rw [forms.body_field]
    decide
  unfold Node.childByField?
  rw [forms.declaration_children, forms.directive_children, List.find?_append, List.find?_append,
    List.find?_cons, hbody, hsemicolon, htrailing]

theorem alike_namespaces : forms.directive.Alike forms.declaration where
  no_fields := by simp [forms.directive_kind, forms.declaration_kind]
  no_events := by simp [forms.directive_kind, forms.declaration_kind]
  subject_eq := by
    unfold Node.subject
    rw [forms.directive_kind, forms.declaration_kind, forms.name_eq]
    rfl

theorem subject_file : file.subject = "" := by
  apply Node.subject_eq_empty (by simp [forms.file_kind])
  intro n hn
  rw [forms.file_children, List.mem_append, List.mem_cons] at hn
  rcases hn with hn | rfl | hn
  · exact forms.no_field n (by simp [hn])
  · exact forms.no_field forms.directive (by simp)
  · exact forms.no_field n (by simp [hn])

theorem subject_block : block.subject = "" := by
  apply Node.subject_eq_empty (by simp [forms.block_kind])
  intro n hn
  rw [forms.block_children, List.mem_append, List.mem_singleton] at hn
  rcases hn with hn | rfl
  · exact forms.no_field n (by simp [hn])
  · exact forms.no_field forms.declaration (by simp)

theorem subject_body : forms.body.subject = "" := by
  apply Node.subject_eq_empty (by simp [forms.body_kind])
  intro n hn
  rw [forms.body_children, List.append_assoc, List.mem_append, List.mem_append] at hn
  rcases hn with hn | hn | hn
  · exact forms.marks_field n (by simp [hn])
  · exact forms.no_field n (by simp [hn])
  · exact forms.marks_field n (by simp [hn])

theorem alike_files : file.Alike block where
  no_fields := by simp [forms.file_kind, forms.block_kind]
  no_events := by simp [forms.file_kind, forms.block_kind]
  subject_eq := forms.subject_file.trans forms.subject_block.symm

theorem alike_file_body : file.Alike forms.body where
  no_fields := by simp [forms.file_kind, forms.body_kind]
  no_events := by simp [forms.file_kind, forms.body_kind]
  subject_eq := forms.subject_file.trans forms.subject_body.symm

/-- The two namespaces say the same of themselves, and the one without a body puts the rest of the
file in the namespace that it opens. -/
theorem visit_namespace (f : Findings) (scope : Scope) :
    f.settled.visit ⟨forms.declaration, [block], f.settle scope⟩ =
      (f.visit ⟨forms.directive, [file], scope⟩).settled := by
  have hname : forms.declaration.namespaceName? = forms.directive.namespaceName? := by
    unfold Node.namespaceName?
    rw [forms.construct_declaration, forms.construct_directive]
    exact forms.name_eq
  have hdeclaration : ∀ outer, forms.declaration.namespaceDeclaration? outer =
      forms.directive.namespaceDeclaration? outer := by
    intro outer
    unfold Node.namespaceDeclaration?
    rw [hname]
  rw [visit_of_namespace (.inl forms.construct_declaration),
    visit_of_namespace (.inr forms.construct_directive)]
  dsimp only
  rw [f.namespaceAt_settled, hname, hdeclaration, forms.construct_declaration]
  rfl

/-! ## The two walks -/

theorem tour_directive (f : Findings) (scope : Scope) :
    f.tour [file] scope forms.directive =
      (f.visit ⟨forms.directive, [file], scope⟩).tourAll [forms.directive, file]
        ⟨forms.directive.openedNamespace (f.namespaceAt scope), none⟩ forms.heading := by
  have hsemicolon : ∀ n ∈ forms.semicolon, n.IsMark :=
    fun n hn => forms.marks n (by simp [hn])
  have hinner : forms.directive.innerScope? scope (f.namespaceAt scope) =
      some ⟨forms.directive.openedNamespace (f.namespaceAt scope), none⟩ := by
    unfold Node.innerScope?
    rw [forms.construct_directive]
  rw [tour_eq, hinner, forms.directive_children]
  dsimp only
  rw [tourAll_append, tourAll_marks hsemicolon]

theorem tour_body (f : Findings) (around : List Node) (scope : Scope) :
    f.tour around scope forms.body = f.tourAll (forms.body :: around) scope forms.members := by
  have hopening : ∀ n ∈ forms.opening, n.IsMark := fun n hn => forms.marks n (by simp [hn])
  have hclosing : ∀ n ∈ forms.closing, n.IsMark := fun n hn => forms.marks n (by simp [hn])
  rw [tour_of_other forms.construct_body, forms.body_children, tourAll_append, tourAll_append,
    tourAll_marks hopening, tourAll_marks hclosing]

theorem tour_declaration (f : Findings) (scope : Scope) :
    f.tour [block] scope forms.declaration =
      ((f.visit ⟨forms.declaration, [block], scope⟩).tourAll [forms.declaration, block]
        ⟨forms.directive.openedNamespace (f.namespaceAt scope), none⟩ forms.heading).tourAll
          [forms.body, forms.declaration, block]
          ⟨forms.directive.openedNamespace (f.namespaceAt scope), none⟩ forms.members := by
  have htrailing : ∀ n ∈ forms.trailing, n.IsMark := fun n hn => forms.marks n (by simp [hn])
  have hinner : forms.declaration.innerScope? scope (f.namespaceAt scope) =
      some ⟨forms.directive.openedNamespace (f.namespaceAt scope), none⟩ := by
    unfold Node.innerScope? Node.openedNamespace
    rw [forms.construct_declaration, forms.name_eq]
  rw [tour_eq, hinner, forms.declaration_children]
  dsimp only
  rw [tourAll_append, tourAll, forms.tour_body, tourAll_marks htrailing]

theorem fileNamespace_directive (f : Findings) (scope : Scope) :
    (f.tour [file] scope forms.directive).fileNamespace =
      forms.directive.openedNamespace (f.namespaceAt scope) := by
  rw [forms.tour_directive, fileNamespace_items forms.items_heading]
  unfold visit
  dsimp only
  rw [forms.construct_directive]
  rfl

theorem tourAll_heading (f : Findings) (scope : Scope) :
    (f.settled.visit ⟨forms.declaration, [block], f.settle scope⟩).tourAll
        [forms.declaration, block]
        ⟨forms.directive.openedNamespace (f.namespaceAt scope), none⟩ forms.heading =
      (f.tour [file] scope forms.directive).settled := by
  have hvisited : (f.visit ⟨forms.directive, [file], scope⟩).fileNamespace =
      forms.directive.openedNamespace (f.namespaceAt scope) := by
    rw [← forms.fileNamespace_directive, forms.tour_directive,
      fileNamespace_items forms.items_heading]
  have hitems := tourAll_items forms.items_heading forms.alike_namespaces [file] [block]
    (f.visit ⟨forms.directive, [file], scope⟩)
    ⟨forms.directive.openedNamespace (f.namespaceAt scope), none⟩
  rwa [(settle_opened hvisited).1, ← forms.visit_namespace, ← forms.tour_directive] at hitems

/-- The namespace with a body finds what the other one finds with the rest of the file. -/
theorem tour_namespace (f : Findings) :
    f.settled.tour [block] (f.settle {}) forms.declaration =
      ((f.tour [file] {} forms.directive).tourAll [file] {} forms.members).settled := by
  have hitems := tourAll_items forms.items_members forms.alike_file_body []
    [forms.declaration, block] (f.tour [file] {} forms.directive) {}
  rw [(settle_opened (forms.fileNamespace_directive f {})).2] at hitems
  rw [forms.tour_declaration, f.namespaceAt_settled, forms.tourAll_heading, hitems]

/-- **The walk finds the same in both forms.** The namespace that it keeps for the rest of the file
in the one is the only difference. -/
theorem walk_forms : walk block = (walk file).settled := by
  have hbefore : ({} : Findings).tourAll [block] {} forms.before =
      (({} : Findings).tourAll [file] {} forms.before).settled :=
    tourAll_items forms.items_before forms.alike_files [] [] {} {}
  have hnone : (({} : Findings).tourAll [file] {} forms.before).fileNamespace = none :=
    fileNamespace_items forms.items_before {} [file] {}
  have hnamespace := forms.tour_namespace (({} : Findings).tourAll [file] {} forms.before)
  rw [(settle_opened hnone).2] at hnamespace
  rw [walk_eq_tour, walk_eq_tour, tour_of_other forms.construct_block,
    tour_of_other forms.construct_file, forms.block_children, forms.file_children, tourAll_append,
    tourAll_append, tourAll, tourAll, tourAll, hbefore]
  exact hnamespace

end NamespaceForms

end CodeSmell
