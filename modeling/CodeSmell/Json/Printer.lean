import CodeSmell.Json.Basic

/-!
# Writing JSON

* `quote` : a string between quotes, with `"`, `\` and the controls escaped and all else as it is;
* `pretty` : one item or entry to a line, two spaces deeper for each level;
* `compact` : everything on one line.
-/

namespace CodeSmell.Json

def hexDigit (n : Nat) : Char :=
  Nat.digitChar n

def escape (c : Char) : List Char :=
  match c with
  | '"' => ['\\', '"']
  | '\\' => ['\\', '\\']
  | '\n' => ['\\', 'n']
  | '\r' => ['\\', 'r']
  | '\t' => ['\\', 't']
  | '\x08' => ['\\', 'b']
  | '\x0c' => ['\\', 'f']
  | c =>
    if c.toNat < 0x20 then
      ['\\', 'u', '0', '0', hexDigit (c.toNat / 16), hexDigit (c.toNat % 16)]
    else [c]

def quote (s : String) : List Char :=
  '"' :: s.toList.flatMap escape ++ ['"']

/-- What a value without parts is written as. -/
def scalar : Json → List Char
  | null => ['n', 'u', 'l', 'l']
  | bool true => ['t', 'r', 'u', 'e']
  | bool false => ['f', 'a', 'l', 's', 'e']
  | natural n => Nat.toDigits 10 n
  | numeral written => written.toList
  | string s => quote s
  | array _ => ['[', ']']
  | object _ => ['\x7b', '\x7d']

/-- The start of a line at a level. -/
def lineBreak (level : Nat) : List Char :=
  '\n' :: List.replicate (2 * level) ' '

mutual

/-- A value whose first character stands on a line of the given level. -/
def layout (level : Nat) : Json → List Char
  | array (item :: items) =>
    '[' :: lineBreak (level + 1) ++ layout (level + 1) item ++ layoutItems (level + 1) items ++
      lineBreak level ++ [']']
  | object ((key, value) :: entries) =>
    '\x7b' :: lineBreak (level + 1) ++ quote key ++ [':', ' '] ++ layout (level + 1) value ++
      layoutEntries (level + 1) entries ++ lineBreak level ++ ['\x7d']
  | j => scalar j

def layoutItems (level : Nat) : List Json → List Char
  | [] => []
  | item :: items => ',' :: lineBreak level ++ layout level item ++ layoutItems level items

def layoutEntries (level : Nat) : List (String × Json) → List Char
  | [] => []
  | (key, value) :: entries =>
    ',' :: lineBreak level ++ quote key ++ [':', ' '] ++ layout level value ++
      layoutEntries level entries

end

def pretty (j : Json) : String :=
  String.ofList (layout 0 j)

mutual

/-- A value on one line. -/
def line : Json → List Char
  | array (item :: items) => '[' :: line item ++ lineItems items ++ [']']
  | object ((key, value) :: entries) =>
    '\x7b' :: quote key ++ ':' :: line value ++ lineEntries entries ++ ['\x7d']
  | j => scalar j

def lineItems : List Json → List Char
  | [] => []
  | item :: items => ',' :: line item ++ lineItems items

def lineEntries : List (String × Json) → List Char
  | [] => []
  | (key, value) :: entries => ',' :: quote key ++ ':' :: line value ++ lineEntries entries

end

def compact (j : Json) : String :=
  String.ofList (line j)

end CodeSmell.Json
