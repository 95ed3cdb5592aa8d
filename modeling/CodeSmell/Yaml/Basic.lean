import CodeSmell.Yaml.Scalar

/-!
# YAML documents

* `Node` : a document as a tree; an alias stands for a node that has the alias's number;
* `Document` : a tree and its numbered nodes;
* `Document.follow`, `scalar?`, `items?`, `entries?` : a node seen as one kind of thing, aliases
  followed; where nothing is written, any collection is empty.
-/

namespace CodeSmell.Yaml

/-- A node of a document. -/
inductive Node where
  /-- The whole of a text that holds no document. -/
  | void
  | scalar (tag : Option String) (s : Scalar)
  | sequence (items : List Node)
  | mapping (entries : List (Node × Node))
  /-- The node with a number. -/
  | reference (number : Nat)
deriving Repr, Inhabited

namespace Node

/-- A scalar of which nothing is written. -/
def empty : Node := scalar none Scalar.empty

def isEmpty : Node → Bool
  | void => true
  | scalar _ s => s.text.isEmpty && s.style == .plain
  | _ => false

end Node

/-- A document. Of two nodes with the same number the later counts. -/
structure Document where
  root : Node
  numbered : List (Nat × Node) := []
deriving Repr, Inhabited

namespace Document

/-- What an alias stands for; any other node stands for itself. -/
def follow (d : Document) (n : Node) : Node :=
  match n with
  | .reference number => ((d.numbered.reverse.lookup number).getD .void)
  | n => n

def scalar? (d : Document) (n : Node) : Option (Option String × Scalar) :=
  match d.follow n with
  | .scalar tag s => some (tag, s)
  | _ => none

def text? (d : Document) (n : Node) : Option String :=
  (d.scalar? n).map (·.2.text)

def items? (d : Document) (n : Node) : Option (List Node) :=
  match d.follow n with
  | .sequence items => some items
  | n => if n.isEmpty then some [] else none

def entries? (d : Document) (n : Node) : Option (List (Node × Node)) :=
  match d.follow n with
  | .mapping entries => some entries
  | n => if n.isEmpty then some [] else none

end Document

end CodeSmell.Yaml
