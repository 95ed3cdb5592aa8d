import CodeSmell.Proofs.Facts.Positions

/-!
# The order of literals and directives

* `Node.literalNodes`, `Node.directiveNodes` : the nodes that literals and directives are read off, one
  for each (`literals_eq_filterMap`, `usings_eq_filterMap`). They stand apart from each other, since
  nothing inside them is looked at;
* `Node.NoEmptyFacts` : neither numbers nor directives are empty, so that what is read off nodes that
  stand apart begins at one byte behind another (`increasing_of_apart`);
* `facts_in_source_order` : the literals, the directives and the magic numbers of a file.
-/

namespace CodeSmell

open Syntax

namespace Syntax.Node

/-- The nodes that literals are read off: numbers, and signs with the number behind them. -/
def literalNodes (root : Node) : List Node :=
  (root.visible.map (·.node)).filter (·.literal?.isSome)

def directiveNodes (root : Node) : List Node :=
  (root.visible.map (·.node)).filter (·.using?.isSome)

theorem isClosed_of_literal? {n : Node} (h : n.literal?.isSome = true) : n.isClosed = true := by
  unfold literal? at h
  unfold isClosed
  cases hconstruct : n.construct <;> rw [hconstruct] at h <;> first | rfl | cases h | skip
  rwa [Option.isSome_map] at h

theorem construct_of_using? {n : Node} (h : n.using?.isSome = true) :
    n.construct = .usingDirective := by
  unfold using? at h
  split at h
  · next hconstruct => exact eq_of_beq hconstruct
  · cases h

theorem isClosed_of_using? {n : Node} (h : n.using?.isSome = true) : n.isClosed = true := by
  rw [isClosed, construct_of_using? h]

theorem Ordered.literalNodes_apart {root : Node} (h : root.Ordered) :
    root.literalNodes.Pairwise fun a b => a.stop ≤ b.start :=
  h.closed_apart fun _ => isClosed_of_literal?

theorem Ordered.directiveNodes_apart {root : Node} (h : root.Ordered) :
    root.directiveNodes.Pairwise fun a b => a.stop ≤ b.start :=
  h.closed_apart fun _ => isClosed_of_using?

def NoEmptyFacts (root : Node) : Prop :=
  ∀ v ∈ root.places, v.node.isNumber = true ∨ v.node.construct = .usingDirective →
    v.node.start < v.node.stop

instance (root : Node) : Decidable root.NoEmptyFacts :=
  inferInstanceAs (Decidable (∀ v ∈ root.places, _))

namespace NoEmptyFacts

variable {root : Node} (h : root.NoEmptyFacts)
include h

/-- A sign is not empty either, since its number is not. -/
theorem of_literal? (hordered : root.Ordered) {v : Place} (hv : v ∈ root.places)
    (hliteral : v.node.literal?.isSome = true) : v.node.start < v.node.stop := by
  unfold literal? at hliteral
  split at hliteral
  · next hnumber => exact h v hv (.inl (isNumber_iff_construct.mpr hnumber))
  · rw [Option.isSome_map] at hliteral
    obtain ⟨operand, hoperand⟩ := Option.isSome_iff_exists.mp hliteral
    obtain ⟨hnamed, -, hnumber⟩ := negated?_eq_some_iff.mp hoperand
    have hpart : operand ∈ v.node.namedChildren := hnamed ▸ List.mem_singleton_self operand
    have hwithin : v.part operand ∈ v.within :=
      v.inside_subset_within (Place.part_mem_inside (List.mem_of_mem_filter hpart))
    obtain ⟨hstart, hstop⟩ := hordered.between hv hwithin
    have hfilled := h _ (within_subset_placesFrom hv hwithin) (.inl hnumber)
    exact Nat.lt_of_le_of_lt hstart (Nat.lt_of_lt_of_le hfilled hstop)
  · cases hliteral

theorem of_mem_literalNodes (hordered : root.Ordered) {n : Node} (hn : n ∈ root.literalNodes) :
    n.start < n.stop := by
  obtain ⟨hvisible, hliteral⟩ := List.mem_filter.mp hn
  obtain ⟨v, hv, rfl⟩ := List.mem_map.mp hvisible
  exact h.of_literal? hordered (mem_places_of_mem_visible hv) hliteral

theorem of_mem_directiveNodes {n : Node} (hn : n ∈ root.directiveNodes) : n.start < n.stop := by
  obtain ⟨hvisible, husing⟩ := List.mem_filter.mp hn
  obtain ⟨v, hv, rfl⟩ := List.mem_map.mp hvisible
  exact h v (mem_places_of_mem_visible hv) (.inr (construct_of_using? husing))

end NoEmptyFacts

end Syntax.Node

/-- What is read off nodes that stand apart, at the place of its node, begins at one byte behind
another. -/
theorem increasing_of_apart {α : Type} {read : Node → Option α} {position : α → Position}
    (hread : ∀ {n : Node} {a : α}, read n = some a → position a = n.position) {ns : List Node}
    (happart : ns.Pairwise fun a b => a.stop ≤ b.start) (hfilled : ∀ n ∈ ns, n.start < n.stop) :
    (ns.filterMap read).Pairwise fun a b => (position a).byte < (position b).byte := by
  refine List.pairwise_filterMap.mpr (happart.imp_of_mem ?_)
  intro n m hn _ hnm a ha b hb
  rw [hread ha, hread hb]
  exact Nat.lt_of_lt_of_le (hfilled n hn) hnm

/-- What is read off some nodes is read off those that it can be read off. -/
theorem flatMap_toList_eq_filterMap {α : Type} (read : Node → Option α) (vs : List Place) :
    vs.flatMap (fun v => (read v.node).toList) =
      ((vs.map (·.node)).filter fun n => (read n).isSome).filterMap read := by
  induction vs with
  | nil => rfl
  | cons v rest ih =>
    rw [List.flatMap_cons, ih, List.map_cons, List.filter_cons]
    cases hread : read v.node with
    | none => rfl
    | some a => exact (List.filterMap_cons_some hread).symm

namespace Facts

variable (path : String) (tree : Tree)

theorem literals_eq_filterMap :
    (ofTree path tree).literals = tree.root.literalNodes.filterMap (·.literal?) :=
  (Findings.walk_literals tree.root).trans (flatMap_toList_eq_filterMap (·.literal?) _)

theorem usings_eq_filterMap :
    (ofTree path tree).usings = tree.root.directiveNodes.filterMap (·.using?) :=
  (Findings.walk_usings tree.root).trans (flatMap_toList_eq_filterMap (·.using?) _)

/-- A literal that is not empty begins on one of the lines of the text. -/
theorem line_le_lineCount {text : String} {tree : Tree} (hordered : tree.root.Ordered)
    (hlines : tree.root.HasLinesOf text) (hfits : tree.root.stop ≤ (codes text).length)
    (hfilled : tree.root.NoEmptyFacts) :
    ∀ l ∈ (ofTree path tree).literals, 1 ≤ l.position.line ∧
      l.position.line ≤ lineCount (codes text) := by
  intro l hl
  have hline : l.position.line = lineAt (codes text) l.position.byte :=
    literals_isIn path hlines l hl
  rw [literals_eq_filterMap] at hl
  obtain ⟨n, hn, hliteral⟩ := List.mem_filterMap.mp hl
  have hwidth := hfilled.of_mem_literalNodes hordered hn
  obtain ⟨v, hv, rfl⟩ := List.mem_map.mp (List.mem_of_mem_filter hn)
  have hplace := Node.mem_places_of_mem_visible hv
  have hstop : v.node.stop ≤ tree.root.stop :=
    (hordered.between (Node.self_mem_placesFrom tree.root []) hplace).2
  have hbyte : l.position.byte = v.node.start := by
    rw [Node.position_of_literal? hliteral]
    rfl
  rw [hline, hbyte]
  exact ⟨one_le_lineAt _ _, lineAt_le_lineCount (by omega)⟩

end Facts

/-- The literals of a file begin at one byte behind another, and so do its directives. Each literal is
read off a node of its own, and no two of these nodes overlap, so that no number is recorded twice, be
it with a sign or without. The magic numbers are some of the literals, and so they are reported from
line to line, on lines that the text has. -/
theorem facts_in_source_order (path : String) (tree : Tree) (text : String)
    (hordered : tree.root.Ordered) (hlines : tree.root.HasLinesOf text)
    (hfits : tree.root.stop ≤ (codes text).length) (hfilled : tree.root.NoEmptyFacts) :
    let f := Facts.ofTree path tree
    f.literals.Pairwise (·.position.byte < ·.position.byte) ∧
      f.usings.Pairwise (·.position.byte < ·.position.byte) ∧
      (f.literals = tree.root.literalNodes.filterMap (·.literal?) ∧
        (∀ n ∈ tree.root.literalNodes, n.literal?.isSome = true) ∧
        tree.root.literalNodes.Pairwise fun a b => a.stop ≤ b.start) ∧
      (∃ magic : List NumericLiteral, magic.Sublist f.literals ∧
        f.magicNumbers = magic.map fun l => ⟨l.text, path, l.position.line⟩) ∧
      f.magicNumbers.Pairwise (·.line ≤ ·.line) ∧
      ∀ m ∈ f.magicNumbers, 1 ≤ m.line ∧ m.line ≤ lineCount (codes text) := by
  intro f
  have hliterals : f.literals.Pairwise (·.position.byte < ·.position.byte) := by
    rw [Facts.literals_eq_filterMap]
    exact increasing_of_apart Node.position_of_literal? hordered.literalNodes_apart
      fun n => hfilled.of_mem_literalNodes hordered
  have husings : f.usings.Pairwise (·.position.byte < ·.position.byte) := by
    rw [Facts.usings_eq_filterMap]
    exact increasing_of_apart Node.position_of_using? hordered.directiveNodes_apart
      fun n => hfilled.of_mem_directiveNodes
  have hmem : ∀ n ∈ tree.root.literalNodes, n.literal?.isSome = true :=
    fun n hn => (List.mem_filter.mp hn).2
  refine ⟨hliterals, husings, ⟨Facts.literals_eq_filterMap path tree, hmem,
    hordered.literalNodes_apart⟩, ⟨_, List.filter_sublist, rfl⟩, ?_, ?_⟩
  · -- lines follow bytes, and what is reported keeps the order of the literals
    have hlinesOrdered : f.literals.Pairwise (·.position.line ≤ ·.position.line) :=
      hliterals.imp_of_mem fun {a b} ha hb hbyte =>
        Position.IsIn.line_le (Facts.literals_isIn path hlines a ha)
          (Facts.literals_isIn path hlines b hb) (Nat.le_of_lt hbyte)
    exact List.pairwise_map.mpr (hlinesOrdered.filter _)
  · intro m hm
    obtain ⟨l, hl, rfl⟩ := List.mem_map.mp hm
    exact Facts.line_le_lineCount path hordered hlines hfits hfilled l (List.mem_of_mem_filter hl)

/-- The directive, the negated number and the other number of the file of several lines. -/
theorem linedTree_facts_in_source_order :
    (linedTree.root.Ordered ∧ linedTree.root.HasLinesOf linedText ∧
        linedTree.root.stop ≤ (codes linedText).length ∧ linedTree.root.NoEmptyFacts) ∧
      (Facts.ofTree "A.cs" linedTree).literals = [⟨"-7", ⟨63, 4⟩⟩, ⟨"8", ⟨71, 4⟩⟩] ∧
      (Facts.ofTree "A.cs" linedTree).literals.Pairwise (·.position.byte < ·.position.byte) ∧
      ∀ m ∈ (Facts.ofTree "A.cs" linedTree).magicNumbers, 1 ≤ m.line ∧ m.line ≤ 5 := by
  have hordered : linedTree.root.Ordered := by decide +kernel
  have hlines : linedTree.root.HasLinesOf linedText := by decide +kernel
  have hfits : linedTree.root.stop ≤ (codes linedText).length := by decide +kernel
  have hfilled : linedTree.root.NoEmptyFacts := by decide +kernel
  have hcount : lineCount (codes linedText) = 5 := by decide +kernel
  obtain ⟨hliterals, -, -, -, -, hmagic⟩ :=
    facts_in_source_order "A.cs" linedTree linedText hordered hlines hfits hfilled
  rw [hcount] at hmagic
  exact ⟨⟨hordered, hlines, hfits, hfilled⟩, by decide +kernel, hliterals, hmagic⟩

end CodeSmell
