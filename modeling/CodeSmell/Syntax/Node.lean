/-!
# Syntax trees

* `Node` : a piece of source text with its grammatical kind and its parts;
* `size`, `sizes` : the number of nodes in a tree and in a list of trees;
* `childByField?`, `namedChildren`, `childOfKind?` : ways to get at the parts;
* `Tree` : the tree of a whole file.
-/

namespace CodeSmell.Syntax

/-- A node of a syntax tree. Punctuation and keywords are nodes without a name of their own; a
node stands in its parent under a field if the grammar says so. -/
structure Node where
  kind : String
  named : Bool
  field : Option String
  /-- The offset of its first byte. -/
  start : Nat
  /-- The offset behind its last byte. -/
  stop : Nat
  /-- The line of its first byte, counted from one. -/
  line : Nat
  /-- What the source has from `start` to `stop`. -/
  text : String
  children : List Node
deriving Inhabited, Repr

namespace Node

mutual

def size : Node → Nat
  | ⟨_, _, _, _, _, _, _, children⟩ => sizes children + 1

def sizes : List Node → Nat
  | [] => 0
  | n :: rest => n.size + sizes rest

end

theorem size_eq (n : Node) : n.size = sizes n.children + 1 := by
  cases n; rfl

theorem size_pos (n : Node) : 0 < n.size := by
  rw [size_eq]; omega

@[simp]
theorem sizes_append (xs ys : List Node) : sizes (xs ++ ys) = sizes xs + sizes ys := by
  induction xs with
  | nil => simp [sizes]
  | cons x xs ih => simp only [List.cons_append, sizes, ih]; omega

/-- Leaving nodes out does not add to the size. -/
theorem sizes_filter_le (p : Node → Bool) (xs : List Node) : sizes (xs.filter p) ≤ sizes xs := by
  induction xs with
  | nil => simp
  | cons x xs ih =>
    rw [List.filter_cons]
    split
    · simp only [sizes]; omega
    · simp only [sizes]; omega

def childByField? (n : Node) (field : String) : Option Node :=
  n.children.find? fun c => c.field == some field

/-- The children that are no mere punctuation. -/
def namedChildren (n : Node) : List Node :=
  n.children.filter (·.named)

def childOfKind? (n : Node) (kind : String) : Option Node :=
  n.children.find? (·.kind == kind)

def namedChildOfKind? (n : Node) (kind : String) : Option Node :=
  n.namedChildren.find? (·.kind == kind)

theorem sizes_namedChildren_lt (n : Node) : sizes n.namedChildren < n.size := by
  have := sizes_filter_le (·.named) n.children
  rw [size_eq]
  exact Nat.lt_succ_of_le this

end Node

/-- The tree of a file, and whether a part of the file did not fit the grammar. -/
structure Tree where
  root : Node
  hasError : Bool
deriving Inhabited, Repr

namespace Tree

/-- Whether no sense could be made of the file at all. -/
def isUnrecognizable (t : Tree) : Bool :=
  t.root.kind == "ERROR"

end Tree

end CodeSmell.Syntax
