/-!
# A place in a text

* `isBreak`, `isBlank`, `isWord` : line breaks, blanks, and the characters of names;
* `Cursor` : what is left of a text, and where that is;
* `Gap` : the blanks and line breaks between two words, with `text`, what they fold to.
-/

namespace CodeSmell.Yaml

/-- Carriage return, line feed, next line, line separator and paragraph separator. -/
def isBreak (c : Char) : Bool :=
  c == '\r' || c == '\n' || c == '\u0085' || c == '\u2028' || c == '\u2029'

def isBlank (c : Char) : Bool :=
  c == ' ' || c == '\t'

/-- The characters of names. -/
def isWord (c : Char) : Bool :=
  c.isAlphanum || c == '_' || c == '-'

/-- Whether a word ends here: at a blank, a line break, or the end of the text. -/
def endsWord : Option Char → Bool
  | none => true
  | some c => isBlank c || isBreak c

def endsLine : Option Char → Bool
  | none => true
  | some c => isBreak c

/-- What a line break is read as. -/
def breakText (c : Char) : Char :=
  if c == '\u2028' || c == '\u2029' then c else '\n'

/-- What is left of a text, with the number of characters and lines before it, and of characters
before it on its line. -/
structure Cursor where
  rest : List Char
  index : Nat := 0
  line : Nat := 0
  column : Nat := 0
deriving Repr, Inhabited

namespace Cursor

def peek (c : Cursor) : Option Char :=
  c.rest.head?

def at? (c : Cursor) (n : Nat) : Option Char :=
  c.rest[n]?

def sees (c : Cursor) (x : Char) : Bool :=
  c.peek == some x

def next (c : Cursor) : Cursor :=
  match c.rest with
  | [] => c
  | _ :: rest => { c with rest := rest, index := c.index + 1, column := c.column + 1 }

def skip : Nat → Cursor → Cursor
  | 0, c => c
  | n + 1, c => skip n c.next

/-- Passes a line break; a carriage return and the line feed behind it are one. -/
def nextLine (c : Cursor) : Cursor :=
  match c.rest with
  | '\r' :: '\n' :: rest =>
    { rest := rest, index := c.index + 2, line := c.line + 1, column := 0 }
  | _ :: rest => { rest := rest, index := c.index + 1, line := c.line + 1, column := 0 }
  | [] => c

/-- The characters up to the first that fails a test, and the place behind them. -/
def takeWhile (c : Cursor) (p : Char → Bool) : List Char × Cursor :=
  let taken := c.rest.takeWhile p
  let count := taken.length
  (taken, { c with
    rest := c.rest.dropWhile p, index := c.index + count, column := c.column + count })

/-- Passes the characters up to the first that fails a test, none of them a line break. -/
def dropWhile (c : Cursor) (p : Char → Bool) : Cursor :=
  (c.takeWhile p).2

/-- Passes blanks, and a comment if one begins then. -/
def skipComment (c : Cursor) : Cursor :=
  let c := c.dropWhile isBlank
  if c.sees '#' then c.dropWhile (!isBreak ·) else c

/-- Whether a line begins here with three dashes or dots that stand alone. -/
def isDocumentMark (c : Cursor) (x : Char) : Bool :=
  c.column == 0 && (c.rest.take 3 == [x, x, x]) && endsWord (c.at? 3)

def endsDocument (c : Cursor) : Bool :=
  c.isDocumentMark '-' || c.isDocumentMark '.'

/-- Enough for a loop that passes at least one character each time. -/
def fuel (c : Cursor) : Nat :=
  c.rest.length + 1

end Cursor

/-- Blanks and line breaks between two words. -/
structure Gap where
  /-- The blanks, as long as no line has ended. -/
  blanks : List Char := []
  /-- The first line break. -/
  first : List Char := []
  /-- The line breaks behind it. -/
  more : List Char := []
  /-- Whether a line has ended. -/
  broken : Bool := false
deriving Repr, Inhabited

namespace Gap

/-- What a gap is folded to: the blanks on a line, a blank for one line break, and for several all
but the first. -/
def text (g : Gap) : List Char :=
  if g.broken then
    match g.first with
    | '\n' :: _ => if g.more.isEmpty then [' '] else g.more
    | _ => g.first ++ g.more
  else g.blanks

/-- Passes blanks and line breaks. A tab may not stand left of `indent` on a new line. -/
def read (indent : Nat) : Nat → Gap → Cursor → Option (Gap × Cursor)
  | 0, g, c => some (g, c)
  | fuel + 1, g, c =>
    match c.peek with
    | none => some (g, c)
    | some x =>
      if isBlank x then
        if g.broken then
          if x == '\t' && c.column < indent then none else read indent fuel g c.next
        else read indent fuel { g with blanks := g.blanks ++ [x] } c.next
      else if isBreak x then
        let g :=
          if g.broken then { g with more := g.more ++ [breakText x] }
          else { g with blanks := [], first := [breakText x], broken := true }
        read indent fuel g c.nextLine
      else some (g, c)

end Gap

end CodeSmell.Yaml
