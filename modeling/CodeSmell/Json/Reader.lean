import CodeSmell.Json.Basic

/-!
# Reading JSON

Each reader takes what is left of the text and gives the thing read with what follows it, or
nothing when the text has no such thing here. Lengths bound the nesting: a value is never deeper
than its text is long.

* `stringBody` : what stands between quotes, its escapes resolved;
* `number` : digits with sign, fraction and exponent, without leading zeros;
* `value` : any value, with blanks before it skipped;
* `parse` : a whole text.
-/

namespace CodeSmell.Json

/-- The blanks that may stand between tokens. -/
def isSpace (c : Char) : Bool :=
  c == ' ' || c == '\t' || c == '\n' || c == '\r'

def hexValue? (c : Char) : Option Nat :=
  if '0' ≤ c && c ≤ '9' then some (c.toNat - 48)
  else if 'a' ≤ c && c ≤ 'f' then some (c.toNat - 87)
  else if 'A' ≤ c && c ≤ 'F' then some (c.toNat - 55)
  else none

def hex4? (a b c d : Char) : Option Nat := do
  let a ← hexValue? a
  let b ← hexValue? b
  let c ← hexValue? c
  let d ← hexValue? d
  some (((a * 16 + b) * 16 + c) * 16 + d)

/-- The character that one letter stands for after a backslash. -/
def unescape? (c : Char) : Option Char :=
  match c with
  | '"' => some '"'
  | '\\' => some '\\'
  | '/' => some '/'
  | 'b' => some '\x08'
  | 'f' => some '\x0c'
  | 'n' => some '\n'
  | 'r' => some '\r'
  | 't' => some '\t'
  | _ => none

/-- A string after its opening quote; `read` holds what came before, backwards. A code unit of the
upper surrogate half needs its lower half right behind it, and a lower half may not stand alone. -/
def stringBody (read : List Char) : List Char → Option (String × List Char)
  | [] => none
  | c :: rest =>
    if c = '"' then some (String.ofList read.reverse, rest)
    else if c = '\\' then
      match rest with
      | 'u' :: a :: b :: c :: d :: rest =>
        match hex4? a b c d with
        | none => none
        | some n =>
          if n < 0xD800 || 0xE000 ≤ n then stringBody (Char.ofNat n :: read) rest
          else if 0xDC00 ≤ n then none
          else
            match rest with
            | '\\' :: 'u' :: a :: b :: c :: d :: rest =>
              match hex4? a b c d with
              | none => none
              | some m =>
                if 0xDC00 ≤ m && m < 0xE000 then
                  stringBody
                    (Char.ofNat (0x10000 + (n - 0xD800) * 0x400 + (m - 0xDC00)) :: read) rest
                else none
            | _ => none
      | c :: rest =>
        match unescape? c with
        | some c => stringBody (c :: read) rest
        | none => none
      | [] => none
    else if c.toNat < 0x20 then none
    else stringBody (c :: read) rest

/-- Whether a character may stand in a number. -/
def isNumeral (c : Char) : Bool :=
  c.isDigit || c == '-' || c == '+' || c == '.' || c == 'e' || c == 'E'

def skipDigits? : List Char → Option (List Char)
  | c :: rest => if c.isDigit then some (rest.dropWhile Char.isDigit) else none
  | [] => none

/-- Drops the integer part of a number: a zero alone, or digits that do not begin with one. -/
def skipInteger? : List Char → Option (List Char)
  | '0' :: rest => some rest
  | cs => skipDigits? cs

def skipFraction? : List Char → Option (List Char)
  | '.' :: rest => skipDigits? rest
  | cs => some cs

def skipExponent? : List Char → Option (List Char)
  | 'e' :: '+' :: rest | 'e' :: '-' :: rest | 'E' :: '+' :: rest | 'E' :: '-' :: rest =>
    skipDigits? rest
  | 'e' :: rest | 'E' :: rest => skipDigits? rest
  | cs => some cs

def isNumber (cs : List Char) : Bool :=
  let unsigned := match cs with
    | '-' :: rest => rest
    | _ => cs
  match (skipInteger? unsigned).bind fun r => (skipFraction? r).bind skipExponent? with
  | some [] => true
  | _ => false

def digitsValue (cs : List Char) : Nat :=
  cs.foldl (fun n c => 10 * n + (c.toNat - 48)) 0

/-- A number: natural if it is written with digits alone. -/
def number (cs : List Char) : Option (Json × List Char) :=
  let written := cs.takeWhile isNumeral
  let rest := cs.dropWhile isNumeral
  if !isNumber written then none
  else if written.all Char.isDigit then some (natural (digitsValue written), rest)
  else some (numeral (String.ofList written), rest)

def key (cs : List Char) : Option (String × List Char) :=
  match cs.dropWhile isSpace with
  | '"' :: rest =>
    match stringBody [] rest with
    | some (name, rest) =>
      match rest.dropWhile isSpace with
      | ':' :: rest => some (name, rest)
      | _ => none
    | none => none
  | _ => none

mutual

/-- A value, with the blanks before it. -/
def value : Nat → List Char → Option (Json × List Char)
  | 0, _ => none
  | fuel + 1, cs =>
    match cs.dropWhile isSpace with
    | '"' :: rest => (stringBody [] rest).map fun (s, rest) => (.string s, rest)
    | '[' :: rest =>
      match rest.dropWhile isSpace with
      | ']' :: rest => some (array [], rest)
      | rest => (items fuel rest).map fun (xs, rest) => (array xs, rest)
    | '\x7b' :: rest =>
      match rest.dropWhile isSpace with
      | '\x7d' :: rest => some (object [], rest)
      | rest => (entries fuel rest).map fun (xs, rest) => (object xs, rest)
    | 't' :: 'r' :: 'u' :: 'e' :: rest => some (bool true, rest)
    | 'f' :: 'a' :: 'l' :: 's' :: 'e' :: rest => some (bool false, rest)
    | 'n' :: 'u' :: 'l' :: 'l' :: rest => some (null, rest)
    | rest => number rest

/-- One or more items, up to the bracket that closes the array. -/
def items : Nat → List Char → Option (List Json × List Char)
  | 0, _ => none
  | fuel + 1, cs =>
    match value fuel cs with
    | none => none
    | some (item, rest) =>
      match rest.dropWhile isSpace with
      | ',' :: rest => (items fuel rest).map fun (xs, rest) => (item :: xs, rest)
      | ']' :: rest => some ([item], rest)
      | _ => none

/-- One or more entries, up to the brace that closes the object. -/
def entries : Nat → List Char → Option (List (String × Json) × List Char)
  | 0, _ => none
  | fuel + 1, cs =>
    match key cs with
    | none => none
    | some (name, rest) =>
      match value fuel rest with
      | none => none
      | some (item, rest) =>
        match rest.dropWhile isSpace with
        | ',' :: rest => (entries fuel rest).map fun (xs, rest) => ((name, item) :: xs, rest)
        | '\x7d' :: rest => some ([(name, item)], rest)
        | _ => none

end

/-- The value that a text holds, blanks around it apart. -/
def parse (text : String) : Option Json :=
  let cs := text.toList
  match value (cs.length + 1) cs with
  | some (j, rest) => if rest.all isSpace then some j else none
  | none => none

end CodeSmell.Json
