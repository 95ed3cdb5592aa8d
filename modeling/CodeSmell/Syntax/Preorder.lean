import CodeSmell.Syntax.Node

/-!
# Trees written as rows

A tree is handed over as the list of its nodes, each before its parts, with the depth it stands at.

* `slice`, `lineAt` : the text between two byte offsets, and the line an offset is on;
* `Row` : a node without its parts;
* `graft` : puts a row in front of the trees that follow it, taking the deeper ones as its parts;
* `Tree.ofPreorder?` : the tree of a text.
-/

namespace CodeSmell.Syntax

/-- The text from one byte offset to another; empty if either cuts a character in two. -/
def slice (bytes : ByteArray) (start stop : Nat) : String :=
  (String.fromUTF8? (bytes.extract start stop)).getD ""

/-- `count`, and one more for each line break among the first bytes. -/
def lineBreaks (count : Nat) : Nat → List UInt8 → Nat
  | 0, _ => count
  | _, [] => count
  | n + 1, b :: rest => lineBreaks (if b = 10 then count + 1 else count) n rest

/-- The line of the byte at offset `start`, counted from one. -/
def lineAt (bytes : List UInt8) (start : Nat) : Nat :=
  lineBreaks 1 start bytes

theorem lineBreaks_eq_add (count n : Nat) (bytes : List UInt8) :
    lineBreaks count n bytes = count + (bytes.take n).count 10 := by
  induction n generalizing count bytes with
  | zero => simp [lineBreaks]
  | succ n ih =>
    cases bytes with
    | nil => simp [lineBreaks]
    | cons b rest =>
      rw [lineBreaks, ih, List.take_succ_cons, List.count_cons]
      by_cases h : b = 10
      · simp [h]; omega
      · simp [h]

/-- The line is one more than the number of line breaks before it. -/
theorem lineAt_eq (bytes : List UInt8) (start : Nat) :
    lineAt bytes start = 1 + (bytes.take start).count 10 :=
  lineBreaks_eq_add 1 start bytes

/-- A node without its parts. -/
structure Row where
  depth : Nat
  kind : String
  named : Bool
  field : Option String
  start : Nat
  stop : Nat
deriving Inhabited, Repr

/-- A tree and the depth it stands at. -/
structure Branch where
  depth : Nat
  node : Node

def Row.node (bytes : ByteArray) (codes : List UInt8) (row : Row) (children : List Node) :
    Node where
  kind := row.kind
  named := row.named
  field := row.field
  start := row.start
  stop := row.stop
  line := lineAt codes row.start
  text := slice bytes row.start row.stop
  children := children

/-- Puts a row in front of the branches that follow it. Those that stand deeper, up to the first
that does not, are below it. -/
def graft (bytes : ByteArray) (codes : List UInt8) (row : Row) (branches : List Branch) :
    List Branch :=
  let below := branches.takeWhile fun b => row.depth < b.depth
  let behind := branches.dropWhile fun b => row.depth < b.depth
  ⟨row.depth, row.node bytes codes (below.map (·.node))⟩ :: behind

/-- The tree of `text` that the rows write, if they begin with a root. -/
def Tree.ofPreorder? (text : String) (hasError : Bool) (rows : List Row) : Option Tree :=
  let bytes := text.toUTF8
  let codes := bytes.data.toList
  match rows.foldr (graft bytes codes) [] with
  | [] => none
  | b :: _ => some ⟨b.node, hasError⟩

end CodeSmell.Syntax
