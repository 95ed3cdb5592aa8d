import CodeSmell.Check.Naming
import CodeSmell.Proofs.Facts.Declarers
import CodeSmell.Proofs.Facts.Remarks
import Mathlib.Data.List.Flatten

/-!
# The variables of patterns

* `Node.Designates` : a pattern names what it matches, or takes it apart into a group of names;
* `designated_sublist` : the identifiers that a designation binds are visible ones, in their order;
* `pattern_variables_recorded` : the identifiers that a declaration pattern or a `var` pattern binds are
  recorded as locals, each once, and as no references; those of a recursive pattern are recorded as
  references and not as locals (`recursivePattern_unrecorded`).
-/

namespace CodeSmell

open Syntax

namespace Syntax

namespace Node

/-- The identifiers that a designation binds are visible ones, in their order. -/
theorem designated_sublist {n : Node} {around : List Node}
    (hopen : ∀ a ∈ around, a.isClosed = false) :
    n.designated.Sublist (((n.visibleFrom around).map (·.node)).filter (·.isIdentifier)) := by
  induction n using parts_induction generalizing around with
  | step n ih =>
    rw [designated_eq, visibleFrom_eq hopen, List.map_cons]
    split
    · next hid =>
      rw [List.filter_cons_of_pos hid]
      exact List.singleton_sublist.mpr List.mem_cons_self
    · next hid =>
      rw [List.filter_cons_of_neg hid]
      split
      · next hgroup =>
        have hclosed : n.isClosed = false := by
          rw [isClosed, construct_of_isLink (isLink_of_isGroup hgroup)]
        have hopen' : ∀ a ∈ n :: around, a.isClosed = false :=
          List.forall_mem_cons.mpr ⟨hclosed, hopen⟩
        rw [hclosed, if_neg (by decide), List.map_flatMap, List.filter_flatMap, namedChildren]
        exact (List.filter_sublist.flatMap designated).trans
          (List.Sublist.flatMap_right n.children fun c hc => ih c hc hopen')
      · exact List.nil_sublist _

/-- The identifiers that a visible designation binds begin one behind the other. -/
theorem WellFormed.designated_increasing {root : Node} (h : root.WellFormed) {v : Place}
    (hv : v ∈ root.visible) : v.node.designated.Pairwise fun a b => a.start < b.start := by
  obtain ⟨before, after, hsplit⟩ := visibleFrom_split (List.forall_mem_nil _) hv
  have hvisible : (v.node.visibleFrom v.ancestors).Sublist root.visible := by
    rw [visible, hsplit]
    exact (List.sublist_append_right before _).trans (List.sublist_append_left _ after)
  exact h.identifiers_increasing.sublist
    ((designated_sublist (mem_visible.mp hv).2).trans ((hvisible.map _).filter _))

/-! ## Designations of patterns -/

/-- A pattern names what it matches, or takes it apart into a group of names that stands last. -/
inductive Designates (n : Node) : Node → Prop
  | name {d : Node} (given : n.childByField? "name" = some d) (word : d.isIdentifier = true) :
      Designates n d
  | group {d : Node} (unnamed : n.childByField? "name" = none)
      (unlabelled : n.childByField? "designation" = none)
      (last : n.namedChildren.getLast? = some d)
      (parenthesized : d.kind = "parenthesized_variable_designation") : Designates n d

theorem Designates.designation?_eq {n d : Node} (h : n.Designates d) : n.designation? = some d := by
  cases h with
  | name given word =>
    rw [designation?, given]
    exact Option.filter_eq_some_iff.mpr ⟨rfl, by rw [word, Bool.true_or]⟩
  | group unnamed unlabelled last parenthesized =>
    rw [designation?, unnamed, unlabelled, last]
    exact Option.filter_eq_some_iff.mpr ⟨rfl, by simp [parenthesized]⟩

/-- The kinds of patterns that may give names to what they match. -/
def bindingPatterns : List String :=
  ["declaration_pattern", "var_pattern", "recursive_pattern"]

theorem isClosed_of_bindingPattern {n : Node} (h : n.kind ∈ bindingPatterns) :
    n.isClosed = false := by
  have hall : ∀ kind ∈ bindingPatterns,
      Construct.ofKind kind = .pattern ∨ Construct.ofKind kind = .other := by decide
  rcases hall n.kind h with hconstruct | hconstruct
  · rw [isClosed, construct, hconstruct]
  · rw [isClosed, construct, hconstruct]

/-- Declaration patterns and `var` patterns introduce what they bind. -/
theorem introduced_of_designates {n d : Node} (hpattern : n.kind ∈ bindingPatterns)
    (hkind : n.kind ≠ "recursive_pattern") (h : n.Designates d) (ancestors : List Node) :
    n.introduced ancestors = d.designated.map (.named n .localVariable) := by
  have hall : ∀ kind ∈ bindingPatterns, kind ≠ "recursive_pattern" →
      Construct.ofKind kind = .pattern := by decide
  rw [introduced, construct, hall n.kind hpattern hkind]
  change n.patternVariables = _
  rw [patternVariables_eq, h.designation?_eq, Option.toList_some, List.flatMap_singleton]

end Node

end Syntax

/-- What a file declares at a byte is checked for its name. -/
theorem Facts.mem_namingViolations {f : Facts} {byte : Nat} {d : Declaration}
    (hd : d ∈ f.declaredAt byte) {violation : NamingViolation}
    (h : d.namingViolation? f.path = some violation) : violation ∈ f.namingViolations := by
  obtain ⟨placed, hplaced, rfl⟩ := List.mem_map.mp hd
  exact List.mem_filterMap.mpr ⟨placed, List.mem_of_mem_filter hplaced, h⟩

/-- **The variables of patterns.** Each identifier that a visible pattern binds is a visible one. If it is
bound by a declaration pattern or by a `var` pattern, one declaration begins there, which is a local with
its text as its name; it refers to nothing, and is reported if it is not written as locals are. If it is
bound by a recursive pattern, no declaration begins there and it is a reference to its name. -/
theorem pattern_variables_recorded (path : String) {tree : Tree} (h : tree.root.WellFormed)
    (hplain : tree.root.PlainNames) {v : Place} {d : Node} (hv : v ∈ tree.root.visible)
    (hpattern : v.node.kind ∈ Node.bindingPatterns) (hd : v.node.Designates d) :
    (Facts.ofTree path tree).references = tree.root.visible.flatMap tree.root.referencesIn ∧
      ∀ m ∈ d.designated, ∃ w ∈ tree.root.visible, w.node = m ∧
        (v.node.kind ≠ "recursive_pattern" →
          DeclaredOnce path tree (.named v.node .localVariable m) w ∧
            (isDiscard (symbolName m.text) = false →
              Convention.lowerCamel.admits (symbolName m.text) = false →
                ⟨m.text, .localVariable, path, m.line, .lowerCamel⟩ ∈
                  (Facts.ofTree path tree).namingViolations)) ∧
        (v.node.kind = "recursive_pattern" → MerelyMentioned path tree w) := by
  refine ⟨h.references_ofTree, fun m hm => ?_⟩
  have hopen := Node.isClosed_of_bindingPattern hpattern
  have hpart := Node.mem_children_of_designation? hd.designation?_eq
  obtain ⟨w, hleads, rfl, hid⟩ := Place.leadsTo_of_mem_designated hpart hm
  have hw : w ∈ tree.root.visible := Node.mem_visible_of_leadsTo hv hopen hleads
  refine ⟨w, hw, rfl, fun hkind => ?_, fun hkind => ?_⟩
  · have hintroduced := Node.introduced_of_designates hpattern hkind hd v.ancestors
    have hdeclares : v.Declares w := by
      refine .introduced (.named v.node .localVariable w.node) ?_ rfl hleads
      rw [hintroduced]
      exact List.mem_map_of_mem hm
    have honce : DeclaredOnce path tree (.named v.node .localVariable w.node) w := by
      have hincreasing := h.designated_increasing
        (Node.mem_visible_of_leadsTo hv hopen (.part hpart))
      refine declaredOnce_of_declares path h hplain hw hid hv hdeclares ?_
      rw [hintroduced, List.filter_map]
      exact congrArg (List.map _) (Node.filter_start hincreasing hm)
    refine ⟨honce, fun hdiscard hadmits => ?_⟩
    refine Facts.mem_namingViolations (honce.declared ▸ List.mem_singleton_self _) ?_
    change (if isDiscard (symbolName w.node.text) ||
      Convention.lowerCamel.admits (symbolName w.node.text) then none else some _) = some _
    rw [hdiscard, hadmits]
    rfl
  · have hnone : ∀ u ∈ tree.root.visible, ¬ u.Declares w := by
      intro u _ hu
      obtain rfl := hleads.eq_of_declares (by rw [Node.isLink, hkind]; decide) hu hplain hw
      exact hu.construct_ne_other (by rw [Node.construct, hkind]; rfl)
    exact merelyMentioned_of_not_declares path h hplain hw hid hnone

namespace Syntax.Node

/-- The file `class C { void M() { if (o is …) { } } }`. -/
def matching (pattern : Node) : Node :=
  classOfMethod
    [phrase "if_statement" none
      [token 21 "if", token 24 "(",
        phrase "is_pattern_expression" (some "condition")
          [word (some "expression") 25 "o", token 27 "is", pattern],
        token pattern.stop ")",
        phrase "block" (some "consequence")
          [token (pattern.stop + 2) "\x7b", token (pattern.stop + 4) "\x7d"]]]
    (pattern.stop + 6)

def nameOfMatch : Node :=
  word (some "name") 34 "A"

/-- The pattern `int A`. -/
def typedPattern : Node :=
  phrase "declaration_pattern" (some "pattern") [predefinedType "type" 30 "int", nameOfMatch]

/-- The pattern `{ } A`. -/
def bracedPattern : Node :=
  phrase "recursive_pattern" (some "pattern")
    [phrase "property_pattern_clause" none [token 30 "\x7b", token 32 "\x7d"], nameOfMatch]

theorem typedPattern_designates : typedPattern.Designates nameOfMatch :=
  .name rfl (by decide)

theorem bracedPattern_designates : bracedPattern.Designates nameOfMatch :=
  .name rfl (by decide)

theorem matching_plain {pattern : Node} (h : pattern = typedPattern ∨ pattern = bracedPattern) :
    (matching pattern).WellFormed ∧ (matching pattern).PlainNames := by
  rcases h with rfl | rfl
  · decide +kernel
  · decide +kernel

theorem exists_pattern {pattern : Node} (h : pattern = typedPattern ∨ pattern = bracedPattern) :
    ∃ v ∈ (matching pattern).visible, v.node = pattern := by
  rcases h with rfl | rfl
  · exact ⟨(matching typedPattern).visible[20], List.getElem_mem _, rfl⟩
  · exact ⟨(matching bracedPattern).visible[20], List.getElem_mem _, rfl⟩

end Syntax.Node

/-- The `A` of the first file is a local that should begin in lower case; that of the second is none. -/
theorem matches_recorded :
    ((Node.matching Node.typedPattern).WellFormed ∧ (Node.matching Node.typedPattern).PlainNames) ∧
      (∃ v ∈ (Node.matching Node.typedPattern).visible, v.node.kind ∈ Node.bindingPatterns ∧
        v.node.Designates Node.nameOfMatch) ∧
      (Facts.ofTree "A.cs" ⟨Node.matching Node.typedPattern, false⟩).declaredAt 34 =
        [⟨"A", .localVariable, ⟨34, 1⟩, none, none, false, false, none⟩] ∧
      ⟨"A", .localVariable, "A.cs", 1, .lowerCamel⟩ ∈
        (Facts.ofTree "A.cs" ⟨Node.matching Node.typedPattern, false⟩).namingViolations ∧
      ((Node.matching Node.bracedPattern).WellFormed ∧
        (Node.matching Node.bracedPattern).PlainNames) ∧
      (∃ v ∈ (Node.matching Node.bracedPattern).visible, v.node.kind ∈ Node.bindingPatterns ∧
        v.node.Designates Node.nameOfMatch) ∧
      (Facts.ofTree "A.cs" ⟨Node.matching Node.bracedPattern, false⟩).declaredAt 34 = [] := by
  have hplain := Node.matching_plain (.inl rfl)
  have hplain' := Node.matching_plain (.inr rfl)
  obtain ⟨v, hv, hnode⟩ := Node.exists_pattern (.inl rfl)
  obtain ⟨v', hv', hnode'⟩ := Node.exists_pattern (.inr rfl)
  have hpattern : v.node.kind ∈ Node.bindingPatterns := by rw [hnode]; decide
  have hpattern' : v'.node.kind ∈ Node.bindingPatterns := by rw [hnode']; decide
  have hd : v.node.Designates Node.nameOfMatch := hnode ▸ Node.typedPattern_designates
  have hd' : v'.node.Designates Node.nameOfMatch := hnode' ▸ Node.bracedPattern_designates
  have htree : (Tree.mk (Node.matching Node.typedPattern) false).root.WellFormed := hplain.1
  have htree' : (Tree.mk (Node.matching Node.bracedPattern) false).root.WellFormed := hplain'.1
  obtain ⟨-, hbound⟩ := pattern_variables_recorded "A.cs" htree hplain.2 hv hpattern hd
  obtain ⟨-, hbound'⟩ := pattern_variables_recorded "A.cs" htree' hplain'.2 hv' hpattern' hd'
  obtain ⟨w, -, hword, hlocal, -⟩ := hbound Node.nameOfMatch (List.mem_singleton_self _)
  obtain ⟨w', -, hword', -, hmention⟩ := hbound' Node.nameOfMatch (List.mem_singleton_self _)
  obtain ⟨honce, hviolation⟩ := hlocal (by rw [hnode]; decide)
  have hdeclared := honce.declared
  have hundeclared := (hmention (by rw [hnode']; rfl)).undeclared
  rw [hword, hnode] at hdeclared
  rw [hword'] at hundeclared
  exact ⟨hplain, ⟨v, hv, hpattern, hd⟩, hdeclared, hviolation (by decide) (by decide), hplain',
    ⟨v', hv', hpattern', hd'⟩, hundeclared⟩

/-- A name that a recursive pattern binds is no local but a reference, and is not reported. -/
theorem recursivePattern_unrecorded :
    ((Node.matching Node.bracedPattern).WellFormed ∧
        (Node.matching Node.bracedPattern).PlainNames) ∧
      (∃ v ∈ (Node.matching Node.bracedPattern).visible, v.node.kind = "recursive_pattern" ∧
        v.node.Designates Node.nameOfMatch) ∧
      Convention.lowerCamel.admits Node.nameOfMatch.text = false ∧
      (Facts.ofTree "A.cs" ⟨Node.matching Node.bracedPattern, false⟩).declarations.map (·.name) =
        ["C", "M"] ∧
      (Facts.ofTree "A.cs" ⟨Node.matching Node.bracedPattern, false⟩).references =
        [⟨"o", 1⟩, ⟨"A", 1⟩] ∧
      (Facts.ofTree "A.cs" ⟨Node.matching Node.bracedPattern, false⟩).namingViolations = [] := by
  obtain ⟨v, hv, hnode⟩ := Node.exists_pattern (.inr rfl)
  exact ⟨Node.matching_plain (.inr rfl),
    ⟨v, hv, by rw [hnode]; rfl, hnode ▸ Node.bracedPattern_designates⟩, by decide +kernel,
    by decide +kernel, by decide +kernel, by decide +kernel⟩

end CodeSmell
