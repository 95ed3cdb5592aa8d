import CodeSmell.Text.Category

/-!
# Quoted text

A message shows a name between double quotes, with every character that a terminal would not show
on its own written as an escape.

* `escape` : the characters that stand for one character;
* `quoted` : a text in double quotes; a single quote stands for itself;
* `quotedPath` : a path in double quotes; a single quote is escaped.
-/

namespace CodeSmell.Text

/-- A character that attaches to the one before it. Two half-width voicing marks do so although
they are letters. -/
def isExtending (c : Char) : Bool :=
  category c == .extending || c.toNat == 0xFF9E || c.toNat == 0xFF9F

/-- The code point in hexadecimal: `\u`, a brace, the digits, a brace. -/
def codePoint (c : Char) : List Char :=
  '\\' :: 'u' :: '\x7b' :: Nat.toDigits 16 c.toNat ++ ['\x7d']

def escape (c : Char) : List Char :=
  match c with
  | '\x00' => ['\\', '0']
  | '\t' => ['\\', 't']
  | '\r' => ['\\', 'r']
  | '\n' => ['\\', 'n']
  | '\\' => ['\\', '\\']
  | '"' => ['\\', '"']
  | c => if isExtending c || category c == .hidden then codePoint c else [c]

/-- As `escape`, a single quote included. -/
def escapeInPath (c : Char) : List Char :=
  if c == '\'' then ['\\', '\''] else escape c

def quoted (s : String) : String :=
  String.ofList ('"' :: s.toList.flatMap escape ++ ['"'])

def quotedPath (s : String) : String :=
  String.ofList ('"' :: s.toList.flatMap escapeInPath ++ ['"'])

end CodeSmell.Text
