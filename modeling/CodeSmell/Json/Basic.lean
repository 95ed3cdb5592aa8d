/-!
# JSON values

* `Json` : a value; an object keeps its entries in the order they were written;
* `get?` : the value under a name, the last one when a name is repeated;
* `natural?`, `string?`, `bool?`, `items?` : the value seen as one kind of thing.
-/

namespace CodeSmell

/-- A JSON value. A number that is not a natural number is kept as it is written. -/
inductive Json where
  | null
  | bool (value : Bool)
  | natural (value : Nat)
  | numeral (written : String)
  | string (value : String)
  | array (items : List Json)
  | object (entries : List (String × Json))
deriving Inhabited, Repr

namespace Json

/-- The value under `name` in a list of entries; of two entries of one name the later counts. -/
def entry? (name : String) : List (String × Json) → Option Json
  | [] => none
  | (key, value) :: rest =>
    match entry? name rest with
    | some later => some later
    | none => if key = name then some value else none

def get? (j : Json) (name : String) : Option Json :=
  match j with
  | object entries => entry? name entries
  | _ => none

/-- A number below 2^64. -/
def natural? : Json → Option Nat
  | natural n => if n < Nat.pow 2 64 then some n else none
  | _ => none

def string? : Json → Option String
  | string s => some s
  | _ => none

def bool? : Json → Option Bool
  | bool b => some b
  | _ => none

def items? : Json → Option (List Json)
  | array items => some items
  | _ => none

def entries? : Json → Option (List (String × Json))
  | object entries => some entries
  | _ => none

def listOf? {α : Type} (read : Json → Option α) (j : Json) : Option (List α) :=
  j.items?.bind fun items => items.mapM read

end Json

end CodeSmell
