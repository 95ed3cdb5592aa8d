import CodeSmell.Proofs.Facts.Tour

/-!
# Identifiers declare or refer

* `Place.FixedIn`, `referencesFrom_eq` : if no later place adds a site where an identifier stands,
  then the sites known in the end decide about each identifier;
* `Node.declaresAt` : an identifier that begins at a byte declares something, judged by the recorded
  declarations and the names of namespaces;
* `mem_sites_iff_declaresAt` : in a well-formed tree these are the sites of the walk;
* `identifier_declares_or_refers_once` : the references of a walk are the visible identifiers that
  declare nothing, each once and in source order, with what attributes add to them.
-/

namespace CodeSmell

open Syntax

namespace Findings

/-- The references of several places, visited in turn where some sites are known. -/
def referencesFrom (sites : List Nat) : List Place → List Reference
  | [] => []
  | v :: rest => v.referencesAt sites ++ referencesFrom (v.sites ++ sites) rest

theorem walk_references (root : Node) :
    (walk root).references.toList = referencesFrom [] root.visible := by
  have hfold : ∀ (ps : List Pending) (f : Findings), (ps.foldl visit f).references.toList =
      f.references.toList ++ referencesFrom f.sites (ps.map Pending.place) := by
    intro ps
    induction ps with
    | nil => intro f; simp [referencesFrom]
    | cons p rest ih =>
      intro f
      rw [List.foldl_cons, ih, visit_references, visit_sites, List.map_cons, referencesFrom,
        List.append_assoc]
  obtain ⟨ps, hps, hwalk⟩ := walk_eq_foldl root
  rw [hwalk, hfold, hps]
  rfl

end Findings

/-! ## Sites that come too late -/

namespace Syntax

/-- If the first place is an identifier, the second adds no site where it begins. -/
def Place.FixedIn (v w : Place) : Prop :=
  v.node.isIdentifier = true → v.node.start ∉ w.sites

theorem Place.referencesAt_congr {v : Place} {known final : List Nat}
    (h : v.node.isIdentifier = true → (v.node.start ∈ known ↔ v.node.start ∈ final)) :
    v.referencesAt known = v.referencesAt final := by
  unfold Place.referencesAt
  by_cases hid : v.node.isIdentifier = true
  · have hcontains : known.contains v.node.start = final.contains v.node.start := by
      rw [Bool.eq_iff_iff, List.contains_iff_mem, List.contains_iff_mem]
      exact h hid
    rw [hcontains]
  · have hother : (v.node.construct == .identifier) = false := by
      rw [← Bool.not_eq_true, beq_iff_eq]
      exact fun hc => hid (Node.isIdentifier_of_construct hc)
    rw [hother]
    rfl

end Syntax

theorem Findings.referencesFrom_eq {places : List Place} {known final : List Nat}
    (hfixed : places.Pairwise Place.FixedIn)
    (hfinal : ∀ v ∈ places, v.node.isIdentifier = true →
      (v.node.start ∈ final ↔ v.node.start ∈ known ∨ ∃ w ∈ places, v.node.start ∈ w.sites)) :
    referencesFrom known places = places.flatMap (·.referencesAt final) := by
  induction places generalizing known with
  | nil => rfl
  | cons v rest ih =>
    obtain ⟨hv, hrest⟩ := List.pairwise_cons.mp hfixed
    rw [referencesFrom, List.flatMap_cons]
    congr 1
    · apply Place.referencesAt_congr
      intro hid
      rw [hfinal v List.mem_cons_self hid]
      refine ⟨.inl, fun h => h.resolve_right ?_⟩
      rintro ⟨w, hw, hsite⟩
      rcases List.mem_cons.mp hw with rfl | hw
      · rw [Place.sites_of_isIdentifier hid] at hsite
        exact List.not_mem_nil hsite
      · exact hv w hw hid hsite
    · apply ih hrest
      intro u hu hid
      rw [hfinal u (List.mem_cons_of_mem v hu) hid, List.exists_mem_cons_iff, List.mem_append,
        or_assoc, or_left_comm]

namespace Syntax.Node

/-- An identifier is followed by nothing that begins at its byte: it is closed, not empty, and what
is named at a later place is named inside that place. -/
theorem WellFormed.fixedIn {root : Node} (h : root.WellFormed) :
    root.visible.Pairwise Place.FixedIn := by
  refine h.visible_pairwise_precedes.imp_of_mem ?_
  intro v w hv hw hvw hid hsite
  have hstop := stop_le_start_of_isClosed hw (isClosed_of_isIdentifier hid) hvw
  have hlt := (h.regular (mem_places_of_mem_visible hv)).nonempty_of_identifier hid
  have hle := Place.start_le_of_mem_sites (h.ordered.within (mem_places_of_mem_visible hw)) hsite
  omega

theorem WellFormed.references_eq {root : Node} (h : root.WellFormed) :
    (Findings.walk root).references.toList =
      root.visible.flatMap (·.referencesAt (Findings.walk root).sites) := by
  rw [Findings.walk_references]
  apply Findings.referencesFrom_eq h.fixedIn
  intro v _ _
  rw [Findings.mem_walk_sites]
  simp only [List.not_mem_nil, false_or]

/-! ## Which identifiers declare -/

/-- Whether an identifier that begins at a byte declares something: a declaration begins there, or
it lies in the name of a namespace, which all the identifiers in it declare together. -/
def declaresAt (root : Node) (byte : Nat) : Bool :=
  (Findings.walk root).declarations.toList.any
      (fun d => d.kind != .namespaceName && d.position.byte == byte) ||
    root.visible.any fun v => v.node.namespaceName?.any fun name =>
      decide (name.start ≤ byte ∧ byte < name.stop)

theorem declaresAt_iff {root : Node} {byte : Nat} :
    root.declaresAt byte = true ↔
      (∃ d ∈ (Findings.walk root).declarations, d.kind ≠ .namespaceName ∧
        d.position.byte = byte) ∨
      ∃ v ∈ root.visible, ∃ name, v.node.namespaceName? = some name ∧
        name.start ≤ byte ∧ byte < name.stop := by
  simp only [declaresAt, Bool.or_eq_true, List.any_eq_true, Bool.and_eq_true,
    bne_iff_ne, beq_iff_eq, Option.any_eq_true, decide_eq_true_eq, Array.mem_toList_iff]

namespace WellFormed

variable {root : Node} (h : root.WellFormed)
include h

/-- The identifiers of a type parameter are sites, but none of them is visible. -/
theorem start_ne_of_typeParameter {v w : Place} {m : Node} (hv : v ∈ root.visible)
    (hid : v.node.isIdentifier = true) (hw : w ∈ root.visible)
    (htype : w.node.construct = .typeParameter) (hm : m ∈ w.node.identifiersUnder) :
    m.start ≠ v.node.start := by
  have hv' := mem_places_of_mem_visible hv
  have hw' := mem_places_of_mem_visible hw
  obtain ⟨⟨u, hu, rfl⟩, humid⟩ := Place.holds_of_mem_identifiersUnder hm
  obtain ⟨hstart, hstop⟩ := h.between hw' hu
  have hclosed : w.node.isClosed = true := by rw [isClosed, htype]
  have hlt := (h.regular hv').nonempty_of_identifier hid
  have hult := (h.regular_within hw' u hu).nonempty_of_identifier humid
  rcases h.comparable hv' hw' with rfl | hvw | hwv
  · rw [construct_of_isIdentifier hid] at htype
    cases htype
  · have := stop_le_start_of_isClosed hw (isClosed_of_isIdentifier hid) hvw
    omega
  · have := stop_le_start_of_isClosed hv hclosed hwv
    omega

/-- An identifier that begins within the ends of a namespace's name stands in it. -/
theorem mem_within_of_between {v w : Place} {name : Node} (hv : v ∈ root.visible)
    (hid : v.node.isIdentifier = true) (hw : w ∈ root.visible)
    (hname : w.node.namespaceName? = some name)
    (hfrom : name.start ≤ v.node.start) (hto : v.node.start < name.stop) :
    v ∈ (w.part name).within := by
  have hv' := mem_places_of_mem_visible hv
  have hu := part_mem_places (mem_places_of_mem_visible hw) (Place.mem_children_of_namespaceName? hname)
  have hlt := (h.regular hv').nonempty_of_identifier hid
  rcases h.comparable hv' hu with rfl | hvu | huv
  · exact Place.self_mem_within _
  · rcases hvu with hinside | hbehind
    -- nothing stands inside an identifier: neither the namespace nor what is around it
    · rcases List.mem_cons.mp (Place.mem_ancestors_of_mem_inside hinside) with heq | ha
      · rw [namespaceName?, ← heq, construct_of_isIdentifier hid] at hname
        cases hname
      · rw [not_isIdentifier_of_mem_ancestors hw ha] at hid
        cases hid
    · change v.node.stop ≤ name.start at hbehind
      omega
  · rcases huv with hinside | hbehind
    · exact Place.inside_subset_within _ hinside
    · change name.stop ≤ v.node.start at hbehind
      omega

theorem mem_identifiersUnder_of_between {v w : Place} {name : Node} (hv : v ∈ root.visible)
    (hid : v.node.isIdentifier = true) (hw : w ∈ root.visible)
    (hname : w.node.namespaceName? = some name)
    (hfrom : name.start ≤ v.node.start) (hto : v.node.start < name.stop) :
    v.node ∈ name.identifiersUnder := by
  have hu := part_mem_places (mem_places_of_mem_visible hw) (Place.mem_children_of_namespaceName? hname)
  exact Place.mem_identifiersUnder (v := w.part name) (h.regular_within hu)
    (h.mem_within_of_between hv hid hw hname hfrom hto) hid fun _ ha =>
      not_isIdentifier_of_mem_ancestors hv ha

/-- Whenever a site was found, it tells the identifiers that declare from those that do not. -/
theorem mem_sites_iff_declaresAt {v : Place} (hv : v ∈ root.visible)
    (hid : v.node.isIdentifier = true) :
    v.node.start ∈ (Findings.walk root).sites ↔ root.declaresAt v.node.start = true := by
  rw [declaresAt_iff, Findings.exists_declaration_at, Findings.mem_walk_sites]
  constructor
  · rintro ⟨w, hw, hsite⟩
    rcases Place.mem_sites.mp hsite with hi | ⟨name, hname, m, hm, heq⟩ | ⟨htype, m, hm, heq⟩
    · exact .inl ⟨w, hw, hi⟩
    · have hpart := Place.mem_children_of_namespaceName? hname
      have hu := part_mem_places (mem_places_of_mem_visible hw) hpart
      obtain ⟨⟨u, humem, rfl⟩, humid⟩ :=
        Place.holds_of_mem_identifiersUnder (v := w.part name) hm
      obtain ⟨hstart, hstop⟩ := h.between hu humem
      have hult := (h.regular_within hu u humem).nonempty_of_identifier humid
      change name.start ≤ _ at hstart
      change _ ≤ name.stop at hstop
      exact .inr ⟨w, hw, name, hname, by omega, by omega⟩
    · exact absurd heq (h.start_ne_of_typeParameter hv hid hw htype hm)
  · rintro (⟨w, hw, hi⟩ | ⟨w, hw, name, hname, hfrom, hto⟩)
    · exact ⟨w, hw, Place.mem_sites.mpr (.inl hi)⟩
    · have hm := h.mem_identifiersUnder_of_between hv hid hw hname hfrom hto
      exact ⟨w, hw, Place.mem_sites.mpr (.inr (.inl ⟨name, hname, _, hm, rfl⟩))⟩

/-- What a place refers to, once it is known which identifiers declare. -/
theorem referencesAt_walk_sites {v : Place} (hv : v ∈ root.visible) :
    v.referencesAt (Findings.walk root).sites =
      if v.node.isIdentifier then
        if root.declaresAt v.node.start then [] else [⟨symbolName v.node.text, v.node.line⟩]
      else v.node.attributeReference?.toList := by
  unfold Place.referencesAt
  by_cases hid : v.node.isIdentifier = true
  · have hsites : (Findings.walk root).sites.contains v.node.start =
        root.declaresAt v.node.start := by
      rw [Bool.eq_iff_iff, List.contains_iff_mem]
      exact h.mem_sites_iff_declaresAt hv hid
    rw [if_pos hid, hsites, construct_of_isIdentifier hid]
    rfl
  · have hother : (v.node.construct == .identifier) = false := by
      rw [← Bool.not_eq_true, beq_iff_eq]
      exact fun hc => hid (isIdentifier_of_construct hc)
    rw [if_neg hid, hother]
    rfl

/-- The references of a walk, read off the tree and the declarations. -/
theorem walk_references_eq :
    (Findings.walk root).references.toList =
      root.visible.flatMap fun v =>
        if v.node.isIdentifier then
          if root.declaresAt v.node.start then [] else [⟨symbolName v.node.text, v.node.line⟩]
        else v.node.attributeReference?.toList := by
  rw [h.references_eq]
  exact List.flatMap_congr fun v hv => h.referencesAt_walk_sites hv

end WellFormed

theorem exists_visible_of_mem_identifiers {root n : Node} (hn : n ∈ root.identifiers) :
    ∃ v ∈ root.visible, v.node = n ∧ n.isIdentifier = true := by
  obtain ⟨hmem, hid⟩ := List.mem_filter.mp hn
  obtain ⟨v, hv, rfl⟩ := List.mem_map.mp hmem
  exact ⟨v, hv, rfl, hid⟩

end Syntax.Node

/-- **No identifier is lost and none is counted twice.** The visible identifiers begin one behind
the other. Each of them declares something or is one reference, and these references, in source
order and with the classes of attributes between them, are all there are. A reference goes by the text
of its identifier, without the `@` that it may begin with. It does not matter when a site is found:
what is known in the end decides. -/
theorem identifier_declares_or_refers_once (path : String) {tree : Tree}
    (h : tree.root.WellFormed) :
    (tree.root.identifiers.Pairwise fun a b => a.start < b.start) ∧
      (Facts.ofTree path tree).references =
        (tree.root.visible.flatMap fun v =>
          if v.node.isIdentifier then
            if tree.root.declaresAt v.node.start then []
            else [⟨symbolName v.node.text, v.node.line⟩]
          else v.node.attributeReference?.toList) ∧
      ((∀ text, symbolName ("@" ++ text) = text) ∧
        ∀ text : String, text.toList.head? ≠ some '@' → symbolName text = text) ∧
      ∀ n ∈ tree.root.identifiers,
        n.start ∈ (Findings.walk tree.root).sites ↔ tree.root.declaresAt n.start = true := by
  refine ⟨h.identifiers_increasing, h.walk_references_eq,
    ⟨symbolName_verbatim, fun _ => symbolName_of_head?_ne⟩, ?_⟩
  intro n hn
  obtain ⟨v, hv, rfl, hid⟩ := Node.exists_visible_of_mem_identifiers hn
  exact h.mem_sites_iff_declaresAt hv hid

/-- A file that refers to a class by its verbatim name: a class `B` with a field `@A a;`. -/
def Syntax.Node.verbatimUse : Node :=
  phrase "compilation_unit" none
    [phrase "class_declaration" none
      [token 0 "class", word (some "name") 6 "B",
        body 8
          [phrase "field_declaration" none
            [phrase "variable_declaration" none
              [word (some "type") 10 "@A", phrase "variable_declarator" none [word (some "name") 13 "a"]],
              token 14 ";"]]
          16]]

/-- The identifiers of a directive are left out, those that name declarations are no references,
and an attribute stands for two. What is written `@A` refers to `A`. -/
theorem importing_identifiers :
    (Node.importing.WellFormed ∧
      Node.importing.identifiers.map (·.text) = ["Help", "B", "A", "a"] ∧
      (Facts.ofTree "Use.cs" ⟨Node.importing, false⟩).references =
        [⟨"HelpAttribute", 1⟩, ⟨"Help", 1⟩, ⟨"A", 1⟩]) ∧
    Node.verbatimUse.WellFormed ∧ Node.verbatimUse.identifiers.map (·.text) = ["B", "@A", "a"] ∧
      (Facts.ofTree "Use.cs" ⟨Node.verbatimUse, false⟩).references = [⟨"A", 1⟩] := by
  have hwf : (Tree.mk Node.importing false).root.WellFormed := Node.importing_wellFormed
  have hverbatim : (Tree.mk Node.verbatimUse false).root.WellFormed := by decide
  obtain ⟨-, hreferences, -⟩ := identifier_declares_or_refers_once "Use.cs" hwf
  obtain ⟨-, huses, -⟩ := identifier_declares_or_refers_once "Use.cs" hverbatim
  exact ⟨⟨hwf, by decide, hreferences.trans (by decide)⟩, hverbatim, by decide,
    huses.trans (by decide)⟩

end CodeSmell
