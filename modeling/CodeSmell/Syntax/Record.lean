import CodeSmell.Json.Basic
import CodeSmell.Syntax.Preorder

/-!
# Trees as records

A tree is an object with the rows of its nodes in preorder. A row is an array of the depth, the
kind, the first byte and the byte behind the last, and the field if there is one; the kind of a node
without a name has an apostrophe in front.

* `Row.ofJson?`, `Tree.ofJson?` : reading rows and trees.
-/

namespace CodeSmell.Syntax

def Row.ofJson? (j : Json) : Option Row :=
  let row? (depth kind start stop : Json) (field : Option String) : Option Row := do
    let kind := (← kind.string?).toList
    some
      { depth := ← depth.natural?
        kind := String.ofList (if kind.head? == some '\'' then kind.tail else kind)
        named := kind.head? != some '\''
        field := field
        start := ← start.natural?
        stop := ← stop.natural? }
  match j with
  | .array [depth, kind, start, stop] => row? depth kind start stop none
  | .array [depth, kind, start, stop, .string field] => row? depth kind start stop (some field)
  | _ => none

def Tree.ofJson? (text : String) (j : Json) : Option Tree := do
  let hasError ← (j.get? "has_error").bind Json.bool?
  let rows ← (j.get? "nodes").bind (Json.listOf? Row.ofJson?)
  Tree.ofPreorder? text hasError rows

/-- The tree of a text that does not fit the grammar. -/
def Tree.unrecognizable : Tree where
  root :=
    { kind := "ERROR", named := true, field := none, start := 0, stop := 0, line := 1, text := ""
      children := [] }
  hasError := true

theorem Tree.isUnrecognizable_unrecognizable : Tree.unrecognizable.isUnrecognizable = true := rfl

end CodeSmell.Syntax
