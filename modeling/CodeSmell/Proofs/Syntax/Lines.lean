import CodeSmell.Proofs.Syntax.Place
import CodeSmell.Syntax.Preorder

/-!
# Lines

* `codes` : the bytes of a text;
* `lineAt_mono`, `one_le_lineAt`, `lineAt_le_lineCount` : lines do not decrease along a text, and each
  byte is on one of the lines that the text has (`lineCount`);
* `Node.HasLinesOf` : each node is on the line that its first byte is on. It is so with each tree that
  rows write (`Tree.hasLinesOf_of_ofPreorder?`).
-/

namespace CodeSmell.Syntax

def codes (text : String) : List UInt8 :=
  text.toUTF8.data.toList

/-- The number of lines of a text: a line break ends a line, and so does the end of the text if it has
anything behind the last line break. -/
def lineCount (bytes : List UInt8) : Nat :=
  match bytes.getLast? with
  | none => 0
  | some last => bytes.count 10 + if last = 10 then 0 else 1

theorem lineAt_mono (bytes : List UInt8) {a b : Nat} (h : a ≤ b) : lineAt bytes a ≤ lineAt bytes b := by
  rw [lineAt_eq, lineAt_eq]
  exact Nat.add_le_add_left ((List.take_prefix_take_left h).sublist.count_le 10) 1

theorem one_le_lineAt (bytes : List UInt8) (start : Nat) : 1 ≤ lineAt bytes start := by
  rw [lineAt_eq]
  exact Nat.le_add_right 1 _

/-- Each byte of a text is on one of its lines. -/
theorem lineAt_le_lineCount {bytes : List UInt8} {start : Nat} (h : start < bytes.length) :
    lineAt bytes start ≤ lineCount bytes := by
  obtain ⟨before, last, rfl⟩ : ∃ before last, bytes = before ++ [last] :=
    ⟨bytes.dropLast, bytes.getLast (List.ne_nil_of_length_pos (by omega)),
      (List.dropLast_concat_getLast _).symm⟩
  rw [List.length_append, List.length_singleton] at h
  -- the line break that may end the text is not in front of any byte
  have htake : (before ++ [last]).take start = before.take start :=
    List.take_append_of_le_length (by omega)
  have hcount : (before.take start).count 10 ≤ before.count 10 :=
    (List.take_sublist start before).count_le 10
  rw [lineAt_eq, htake, lineCount, List.getLast?_append, List.count_append]
  dsimp only [List.getLast?_singleton, Option.some_or]
  by_cases hbreak : last = 10
  · rw [if_pos hbreak, hbreak, List.count_singleton_self]
    omega
  · rw [if_neg hbreak]
    omega

/-! ## Trees of a text -/

/-- Each node of a tree is on the line of the text that its first byte is on. -/
def Node.HasLinesOf (root : Node) (text : String) : Prop :=
  ∀ v ∈ root.places, v.node.line = lineAt (codes text) v.node.start

instance (root : Node) (text : String) : Decidable (root.HasLinesOf text) :=
  inferInstanceAs (Decidable (∀ v ∈ root.places, _))

/-- The nodes of a tree are on their lines wherever it stands. -/
theorem Node.HasLinesOf.placesFrom {n : Node} {text : String} (h : n.HasLinesOf text)
    (around : List Node) :
    ∀ v ∈ n.placesFrom around, v.node.line = lineAt (codes text) v.node.start := by
  rw [placesFrom_eq_map]
  exact List.forall_mem_map.mpr h

theorem Row.node_hasLinesOf {text : String} {children : List Node} (row : Row)
    (h : ∀ c ∈ children, c.HasLinesOf text) :
    (row.node text.toUTF8 (codes text) children).HasLinesOf text := by
  intro v hv
  rcases Node.mem_placesFrom.mp hv with rfl | ⟨c, hc, hv⟩
  · rfl
  · exact (h c hc).placesFrom _ v hv

theorem hasLinesOf_graft {text : String} {branches : List Branch} (row : Row)
    (h : ∀ b ∈ branches, b.node.HasLinesOf text) :
    ∀ b ∈ graft text.toUTF8 (codes text) row branches, b.node.HasLinesOf text := by
  refine List.forall_mem_cons.mpr ⟨row.node_hasLinesOf ?_, ?_⟩
  · refine List.forall_mem_map.mpr fun b hb => ?_
    exact h b ((List.takeWhile_prefix _).subset hb)
  · exact fun b hb => h b ((List.dropWhile_suffix _).subset hb)

/-- A tree that rows write has the lines of its text. -/
theorem Tree.hasLinesOf_of_ofPreorder? {text : String} {hasError : Bool} {rows : List Row}
    {tree : Tree} (h : Tree.ofPreorder? text hasError rows = some tree) :
    tree.root.HasLinesOf text := by
  have hall : ∀ rows : List Row, ∀ b ∈ rows.foldr (graft text.toUTF8 (codes text)) [],
      b.node.HasLinesOf text := by
    intro rows
    induction rows with
    | nil => exact List.forall_mem_nil _
    | cons row rest ih => exact hasLinesOf_graft row ih
  unfold ofPreorder? at h
  dsimp only at h
  split at h
  · cases h
  · next b rest hrows =>
    obtain rfl := Option.some.inj h
    exact hall rows b (hrows ▸ List.mem_cons_self)

end CodeSmell.Syntax
