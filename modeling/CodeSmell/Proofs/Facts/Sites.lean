import CodeSmell.Proofs.Facts.Designations
import CodeSmell.Proofs.Syntax.WellFormed

/-!
# Where declarations are named

* `Place.Holds` : a node of the tree that stands at a place;
* `Place.LeadsTo` : a place inside another one with nothing but links between the two, such as the
  groups of a designation and the declarators of variables;
* `leadsTo_of_mem_designated`, `mem_identifiersUnder` : the identifiers that a designation binds and
  those in a name;
* `Place.site_and_kind` : a declaration is named by the node that makes it or by one that this leads
  to; namespaces are not among these (`Place.kind_ne_namespaceName`);
* `Place.mem_sites` : the offsets at which identifiers declare something, by their three reasons;
  none is before the node that says so (`Place.start_le_of_mem_sites`).
-/

namespace CodeSmell

open Syntax

theorem some_or_some_of_orElse {α : Type} {o o' : Option α} {a : α} (h : (o <|> o') = some a) :
    o = some a ∨ o' = some a := by
  cases o with
  | none => exact .inr h
  | some b => exact .inl h

/-! ## Kinds of declarations -/

theorem Construct.ofKind_typeDeclaration {kind : String} {k : DeclarationKind}
    (h : Construct.ofKind kind = .typeDeclaration k) : k ≠ .namespaceName := by
  unfold Construct.ofKind at h
  split at h <;> cases h <;> decide

theorem Construct.ofKind_declaration {kind : String} {k : DeclarationKind}
    (h : Construct.ofKind kind = .declaration k) : k ≠ .namespaceName := by
  unfold Construct.ofKind at h
  split at h <;> cases h <;> decide

namespace Syntax

/-! ## Nodes of a tree -/

namespace Place

def Holds (v : Place) (n : Node) : Prop :=
  ∃ w ∈ v.within, w.node = n

theorem Holds.self (v : Place) : v.Holds v.node :=
  ⟨v, v.self_mem_within, rfl⟩

theorem Holds.of_part {v : Place} {c n : Node} (hc : c ∈ v.node.children)
    (h : (v.part c).Holds n) : v.Holds n := by
  obtain ⟨w, hw, rfl⟩ := h
  exact ⟨w, inside_subset_within v (mem_inside.mpr ⟨c, hc, hw⟩), rfl⟩

end Place

namespace Node

/-- The kinds of nodes that only hold names, and may stand between a declaring node and the
identifier that it declares. -/
def linkKinds : List String :=
  ["variable_declarator", "parenthesized_variable_designation", "tuple_pattern", "qualified_name",
    "alias_qualified_name", "generic_name"]

def isLink (n : Node) : Bool :=
  linkKinds.contains n.kind

theorem construct_of_isLink {n : Node} (h : n.isLink = true) : n.construct = .other := by
  have hall : ∀ kind ∈ linkKinds, Construct.ofKind kind = .other := by decide
  exact hall n.kind (List.contains_iff_mem.mp h)

theorem isLink_eq_false {n : Node} (h : n.construct ≠ .other) : n.isLink = false := by
  rw [← Bool.not_eq_true]
  exact mt construct_of_isLink h

theorem isLink_of_isGroup {n : Node} (h : n.isGroup = true) : n.isLink = true := by
  rcases Bool.or_eq_true_iff.mp h with hkind | hkind
  · rw [isLink, eq_of_beq hkind]
    decide
  · rw [isLink, eq_of_beq hkind]
    decide

end Node

/-- A place inside another one with nothing but links between the two. -/
structure Place.LeadsTo (v w : Place) : Prop where
  inside : w ∈ v.inside
  links : ∃ between, w.ancestors = between ++ v.path ∧ ∀ a ∈ between, a.isLink = true

theorem Place.LeadsTo.part {v : Place} {c : Node} (h : c ∈ v.node.children) :
    v.LeadsTo (v.part c) :=
  ⟨part_mem_inside h, [], rfl, List.forall_mem_nil _⟩

theorem Place.LeadsTo.of_part {v w : Place} {c : Node} (hc : c ∈ v.node.children)
    (hlink : c.isLink = true) (h : (v.part c).LeadsTo w) : v.LeadsTo w := by
  obtain ⟨hinside, between, hpath, hbetween⟩ := h
  refine ⟨mem_inside.mpr ⟨c, hc, inside_subset_within _ hinside⟩, between ++ [c], ?_, ?_⟩
  · rw [hpath, List.append_assoc]
    rfl
  · exact List.forall_mem_append.mpr ⟨hbetween, List.forall_mem_singleton.mpr hlink⟩

/-- Whatever is on the way from a place to one that it leads to is a link. -/
theorem Place.LeadsTo.isLink_of_between {v u w : Place} (h : v.LeadsTo w)
    (hv : v.path <:+ u.ancestors) (hu : u.path <:+ w.ancestors) : u.node.isLink = true := by
  obtain ⟨between, hpath, hlinks⟩ := h.links
  obtain ⟨inner, hinner⟩ := hu
  obtain ⟨outer, houter⟩ := hv
  -- the way from `w` leads to `u` before it leads to `v`
  have hsplit : inner ++ u.node :: outer ++ v.path = between ++ v.path := by
    rw [← hpath, ← hinner, List.append_assoc, List.cons_append, houter]
    rfl
  refine hlinks u.node (List.append_cancel_right hsplit ▸ ?_)
  exact List.mem_append_right _ List.mem_cons_self

namespace Node

theorem mem_children_of_childByField? {n c : Node} {field : String}
    (h : n.childByField? field = some c) : c ∈ n.children :=
  List.mem_of_find?_eq_some h

theorem mem_children_of_mem_namedChildren {n c : Node} (h : c ∈ n.namedChildren) :
    c ∈ n.children :=
  List.mem_of_mem_filter h

theorem mem_children_of_namedChildOfKind? {n c : Node} {kind : String}
    (h : n.namedChildOfKind? kind = some c) : c ∈ n.children :=
  mem_children_of_mem_namedChildren (List.mem_of_find?_eq_some h)

/-! ## Designations and names -/

theorem identifiersIn_eq (ns : List Node) :
    identifiersIn ns = (ns.filter (·.named)).flatMap identifiersUnder := by
  induction ns with
  | nil => rfl
  | cons n rest ih =>
    rw [identifiersIn, ih, List.filter_cons]
    split <;> rfl

theorem identifiersUnder_eq (n : Node) :
    n.identifiersUnder =
      if n.isIdentifier then [n] else n.namedChildren.flatMap identifiersUnder := by
  rw [namedChildren, ← identifiersIn_eq]
  cases n
  rfl

end Node

namespace Place

/-- A node leads to the identifiers that its parts bind. -/
theorem leadsTo_of_mem_designated {v : Place} {c m : Node} (hc : c ∈ v.node.children)
    (h : m ∈ c.designated) : ∃ w, v.LeadsTo w ∧ w.node = m ∧ m.isIdentifier = true := by
  induction c using Node.parts_induction generalizing v with
  | step c ih =>
    rw [Node.designated_eq] at h
    split at h
    · next hid =>
      rw [List.mem_singleton.mp h]
      exact ⟨v.part c, .part hc, rfl, hid⟩
    · split at h
      · next hgroup =>
        obtain ⟨d, hd, hm⟩ := List.mem_flatMap.mp h
        have hd' := Node.mem_children_of_mem_namedChildren hd
        obtain ⟨w, hw, hnode⟩ := ih d hd' (v := v.part c) hd' hm
        exact ⟨w, .of_part hc (Node.isLink_of_isGroup hgroup) hw, hnode⟩
      · exact absurd h List.not_mem_nil

theorem holds_of_mem_identifiersUnder {v : Place} {m : Node} (h : m ∈ v.node.identifiersUnder) :
    v.Holds m ∧ m.isIdentifier = true := by
  obtain ⟨n, around⟩ := v
  induction n using Node.parts_induction generalizing around with
  | step n ih =>
    rw [Node.identifiersUnder_eq] at h
    split at h
    · next hid =>
      rw [List.mem_singleton.mp h]
      exact ⟨.self _, hid⟩
    · obtain ⟨c, hc, hm⟩ := List.mem_flatMap.mp h
      have hc' := Node.mem_children_of_mem_namedChildren hc
      obtain ⟨hholds, hid⟩ := ih c hc' (n :: around) hm
      exact ⟨.of_part hc' hholds, hid⟩

/-- The identifiers in a name are all those in its tree that are not inside another one. -/
theorem mem_identifiersUnder {v w : Place} (h : ∀ u ∈ v.within, u.node.Regular)
    (hw : w ∈ v.within) (hid : w.node.isIdentifier = true)
    (hopen : ∀ a ∈ w.ancestors, a.isIdentifier = false) : w.node ∈ v.node.identifiersUnder := by
  obtain ⟨n, around⟩ := v
  change w ∈ n.placesFrom around at hw
  induction n using Node.parts_induction generalizing around with
  | step n ih =>
    rw [Node.identifiersUnder_eq]
    rcases Node.mem_placesFrom.mp hw with rfl | ⟨c, hc, hwc⟩
    · rw [if_pos hid]
      exact List.mem_singleton_self n
    · have hnot : n.isIdentifier = false :=
        hopen n ((Node.suffix_ancestors hwc).subset List.mem_cons_self)
      have hpart : ∀ u ∈ c.placesFrom (n :: around), u.node.Regular := fun u hu =>
        h u (Node.mem_placesFrom.mpr (.inr ⟨c, hc, hu⟩))
      -- the way down to an identifier goes through named nodes: the others have no parts
      have hnamed : c.named = true := by
        have hregular := hpart _ (Node.self_mem_placesFrom c (n :: around))
        rcases Node.mem_placesFrom.mp hwc with rfl | ⟨d, hd, -⟩
        · exact hregular.named_of_identifier hid
        · rw [← Bool.not_eq_false]
          intro hunnamed
          have hd' : d ∈ ([] : List Node) := hregular.no_parts_of_unnamed hunnamed ▸ hd
          exact List.not_mem_nil hd'
      rw [if_neg (by rw [hnot]; decide)]
      exact List.mem_flatMap.mpr
        ⟨c, List.mem_filter.mpr ⟨hc, hnamed⟩, ih c hc (n :: around) hpart hwc⟩

end Place

/-! ## Introductions -/

namespace Node

theorem mem_byName {n : Node} {k : DeclarationKind} {i : Introduction} (h : i ∈ n.byName k) :
    i.site ∈ n.children ∧ i.kind = k := by
  obtain ⟨name, hname, rfl⟩ := List.mem_map.mp h
  exact ⟨mem_children_of_childByField? (Option.mem_toList.mp hname), rfl⟩

theorem mem_operator {n : Node} {i : Introduction} (h : i ∈ n.operator) :
    i.site ∈ n.children ∧ i.kind = .operator := by
  unfold operator at h
  simp only at h
  split at h
  · exact absurd h List.not_mem_nil
  · next keyword behind hdrop =>
    rw [List.mem_singleton.mp h]
    refine ⟨(List.dropWhile_suffix (·.kind != "operator")).subset ?_, rfl⟩
    rw [hdrop]
    exact List.mem_cons_self

theorem mem_accessor {n : Node} {ancestors : List Node} {i : Introduction}
    (h : i ∈ n.accessor ancestors) : i.site ∈ n.children ∧ i.kind = .accessor := by
  unfold accessor at h
  split at h
  · exact absurd h List.not_mem_nil
  · next keyword hkeyword =>
    rw [List.mem_singleton.mp h]
    refine ⟨?_, rfl⟩
    rcases some_or_some_of_orElse hkeyword with hname | hword
    · exact mem_children_of_childByField? hname
    · exact List.mem_of_find?_eq_some hword

theorem mem_variableNames {n m : Node} (h : m ∈ n.variableNames) :
    ∃ d ∈ n.children, d.isLink = true ∧ m ∈ d.children := by
  obtain ⟨d, hd, hm⟩ := List.mem_filterMap.mp h
  obtain ⟨hnamed, hkind⟩ := List.mem_filter.mp hd
  refine ⟨d, mem_children_of_mem_namedChildren hnamed, ?_, ?_⟩
  · rw [isLink, eq_of_beq hkind]
    decide
  · rcases some_or_some_of_orElse hm with hname | hfirst
    · exact mem_children_of_childByField? hname
    · exact mem_children_of_namedChildOfKind? hfirst

theorem mem_variableIntroductions {n : Node} {parent : Option Node} {i : Introduction}
    (h : i ∈ n.variableIntroductions parent) :
    i.site ∈ n.variableNames ∧ i.kind ≠ .namespaceName := by
  obtain ⟨name, hname, rfl⟩ := List.mem_map.mp h
  refine ⟨hname, ?_⟩
  simp only [Introduction.named]
  split
  · split
    · split <;> exact nofun
    · split <;> exact nofun
  · exact nofun

theorem mem_children_of_designation? {n d : Node} (h : n.designation? = some d) :
    d ∈ n.children := by
  rcases some_or_some_of_orElse (Option.filter_eq_some_iff.mp h).1 with hname | h
  · exact mem_children_of_childByField? hname
  · rcases some_or_some_of_orElse h with hdesignation | hlast
    · exact mem_children_of_childByField? hdesignation
    · exact mem_children_of_mem_namedChildren (List.mem_of_getLast? hlast)

theorem mem_children_of_loneParameter? {n m : Node} (h : n.loneParameter? = some m) :
    m ∈ n.children := by
  rcases some_or_some_of_orElse (Option.filter_eq_some_iff.mp h).1 with hfield | hlast
  · exact mem_children_of_childByField? hfield
  · have hmem := List.mem_of_mem_filter (List.mem_of_getLast? hlast)
    exact (List.takeWhile_prefix _).subset hmem

theorem mem_loopVariables {n : Node} {i : Introduction} (h : i ∈ n.loopVariables) :
    ∃ m, (∃ d ∈ n.children, m ∈ d.designated) ∧ .named n .localVariable m = i := by
  rw [loopVariables_eq] at h
  split at h
  · obtain ⟨m, hm, rfl⟩ := List.mem_map.mp h
    obtain ⟨d, hd, hm⟩ := List.mem_flatMap.mp hm
    exact ⟨m, ⟨d, mem_children_of_childByField? (Option.mem_toList.mp hd), hm⟩, rfl⟩
  · exact absurd h List.not_mem_nil

end Node

namespace Place

/-- A declaration is named by the node that makes it or by one that this leads to, and is no
namespace. -/
theorem site_and_kind {v : Place} {i : Introduction} (h : i ∈ v.node.introduced v.ancestors) :
    ((i.site = v.node ∧ v.node.construct = .bareParameter) ∨ ∃ w, v.LeadsTo w ∧ w.node = i.site) ∧
      i.kind ≠ .namespaceName := by
  unfold Node.introduced at h
  cases hc : v.node.construct with
  | typeDeclaration k =>
    rw [hc] at h
    obtain ⟨hsite, rfl⟩ := Node.mem_byName h
    exact ⟨.inr ⟨_, .part hsite, rfl⟩, Construct.ofKind_typeDeclaration hc⟩
  | declaration k =>
    rw [hc] at h
    obtain ⟨hsite, rfl⟩ := Node.mem_byName h
    exact ⟨.inr ⟨_, .part hsite, rfl⟩, Construct.ofKind_declaration hc⟩
  | variableGroup =>
    rw [hc] at h
    obtain ⟨hname, hkind⟩ := Node.mem_variableIntroductions h
    obtain ⟨d, hd, hlink, hsite⟩ := Node.mem_variableNames hname
    exact ⟨.inr ⟨_, .of_part hd hlink (.part (v := v.part d) hsite), rfl⟩, hkind⟩
  | operator =>
    rw [hc] at h
    obtain ⟨hsite, hkind⟩ := Node.mem_operator h
    exact ⟨.inr ⟨_, .part hsite, rfl⟩, hkind ▸ nofun⟩
  | conversion =>
    rw [hc] at h
    obtain ⟨hsite, hkind⟩ := Node.mem_operator h
    exact ⟨.inr ⟨_, .part hsite, rfl⟩, hkind ▸ nofun⟩
  | accessor =>
    rw [hc] at h
    obtain ⟨hsite, hkind⟩ := Node.mem_accessor h
    exact ⟨.inr ⟨_, .part hsite, rfl⟩, hkind ▸ nofun⟩
  | pattern =>
    rw [hc] at h
    dsimp only at h
    rw [Node.patternVariables_eq] at h
    obtain ⟨m, hm, rfl⟩ := List.mem_map.mp h
    obtain ⟨d, hd, hm⟩ := List.mem_flatMap.mp hm
    have hpart := Node.mem_children_of_designation? (Option.mem_toList.mp hd)
    obtain ⟨w, hw, hnode, -⟩ := leadsTo_of_mem_designated hpart hm
    exact ⟨.inr ⟨w, hw, hnode⟩, nofun⟩
  | loop =>
    rw [hc] at h
    obtain ⟨m, ⟨d, hd, hm⟩, rfl⟩ := Node.mem_loopVariables h
    obtain ⟨w, hw, hnode, -⟩ := leadsTo_of_mem_designated hd hm
    exact ⟨.inr ⟨w, hw, hnode⟩, nofun⟩
  | lambda =>
    rw [hc] at h
    obtain ⟨m, hm, rfl⟩ := List.mem_map.mp h
    have hpart := Node.mem_children_of_loneParameter? (Option.mem_toList.mp hm)
    exact ⟨.inr ⟨_, .part hpart, rfl⟩, nofun⟩
  | bareParameter =>
    rw [hc] at h
    rw [List.mem_singleton.mp h]
    exact ⟨.inl ⟨rfl, rfl⟩, nofun⟩
  | _ =>
    rw [hc] at h
    exact absurd h List.not_mem_nil

theorem holds_site {v : Place} {i : Introduction} (h : i ∈ v.node.introduced v.ancestors) :
    v.Holds i.site := by
  rcases (site_and_kind h).1 with ⟨hself, -⟩ | ⟨w, hw, hnode⟩
  · rw [hself]
    exact .self v
  · exact ⟨w, inside_subset_within v hw.inside, hnode⟩

theorem kind_ne_namespaceName {v : Place} {i : Introduction}
    (h : i ∈ v.node.introduced v.ancestors) : i.kind ≠ .namespaceName :=
  (site_and_kind h).2

/-! ## Sites -/

/-- The offsets at which a node makes identifiers declare something. -/
def sites (v : Place) : List Nat :=
  v.node.sites v.ancestors

/-- An identifier declares something because a declaration is named there, because it is in the
name of a namespace, or because it is in a type parameter. -/
theorem mem_sites {v : Place} {b : Nat} :
    b ∈ v.sites ↔
      (∃ i ∈ v.node.introduced v.ancestors, i.site.start = b) ∨
      (∃ name, v.node.namespaceName? = some name ∧ ∃ m ∈ name.identifiersUnder, m.start = b) ∨
      (v.node.construct = .typeParameter ∧ ∃ m ∈ v.node.identifiersUnder, m.start = b) := by
  unfold sites Node.sites
  rw [List.mem_append, List.mem_append, or_assoc]
  refine or_congr List.mem_map (or_congr ?_ ?_)
  · cases v.node.namespaceName? with
    | none => simp
    | some name => simp
  · by_cases h : v.node.construct = .typeParameter
    · simp [h]
    · simp [h]

theorem mem_children_of_namespaceName? {n name : Node} (h : n.namespaceName? = some name) :
    name ∈ n.children := by
  unfold Node.namespaceName? at h
  split at h
  · exact Node.mem_children_of_childByField? h
  · exact Node.mem_children_of_childByField? h
  · cases h

/-- Whatever a node makes a site is the start of a node in its tree. -/
theorem holds_of_mem_sites {v : Place} {b : Nat} (h : b ∈ v.sites) :
    ∃ m, v.Holds m ∧ m.start = b := by
  rcases mem_sites.mp h with ⟨i, hi, rfl⟩ | ⟨name, hname, m, hm, rfl⟩ | ⟨-, m, hm, rfl⟩
  · exact ⟨i.site, holds_site hi, rfl⟩
  · have hpart := mem_children_of_namespaceName? hname
    exact ⟨m, .of_part hpart (holds_of_mem_identifiersUnder (v := v.part name) hm).1, rfl⟩
  · exact ⟨m, (holds_of_mem_identifiersUnder hm).1, rfl⟩

theorem start_le_of_mem_sites {v : Place} {b : Nat} (hv : ∀ w ∈ v.within, w.node.PartsInOrder)
    (h : b ∈ v.sites) : v.node.start ≤ b := by
  obtain ⟨m, ⟨w, hw, rfl⟩, rfl⟩ := holds_of_mem_sites h
  exact (between_of_mem_within hv hw).1

theorem sites_of_isIdentifier {v : Place} (h : v.node.isIdentifier = true) : v.sites = [] := by
  have hc := Node.construct_of_isIdentifier h
  simp [sites, Node.sites, Node.introduced, Node.namespaceName?, hc]

end Place

end Syntax

end CodeSmell
