import CodeSmell.Yaml.Cursor

/-!
# Scalars

The texts in a document, in each of the ways they can be written. A reader gives the text and the
place behind it, or nothing if the text is written wrongly.

* `Scalar.plain?` : without quotes; it ends at a colon, a comment or a lesser indentation;
* `Scalar.quoted?` : in single or double quotes, the latter with escapes;
* `Scalar.block?` : as indented lines below a header, kept or folded.
-/

namespace CodeSmell.Yaml

/-- How a scalar is written. -/
inductive Style where
  | plain
  | quoted
  | literal
  | folded
deriving DecidableEq, Repr, Inhabited

/-- A text, and how it is written. -/
structure Scalar where
  text : String
  style : Style
deriving DecidableEq, Repr, Inhabited

namespace Scalar

def empty : Scalar := ⟨"", .plain⟩

/-! ## Plain scalars -/

/-- The brackets and the comma of flow collections. -/
def isFlowMark (c : Char) : Bool :=
  c == ',' || c == '[' || c == ']' || c == '\x7b' || c == '\x7d'

/-- The characters of a plain scalar up to a blank or to its end. In a flow collection a colon may
not stand before a mark. -/
def plainWord (flow : Bool) : List Char → Cursor → Option (List Char × Cursor)
  | [], c => some ([], c)
  | x :: rest, c =>
    if isBlank x || isBreak x then some ([], c)
    else if flow && x == ':' && rest.head?.any (fun y => y == '?' || isFlowMark y) then none
    else if (x == ':' && endsWord rest.head?) || (flow && isFlowMark x) then some ([], c)
    else (plainWord flow rest c.next).map fun (word, c) => (x :: word, c)

/-- The words of a plain scalar, after those already read and a gap. Tells also whether a line has
ended behind the last word. -/
def plainWords (flow : Bool) (indent : Nat) :
    Nat → List Char → Gap → Cursor → Option (List Char × Bool × Cursor)
  | 0, text, g, c => some (text, g.broken, c)
  | fuel + 1, text, g, c =>
    if c.endsDocument || c.sees '#' then some (text, g.broken, c)
    else
      match plainWord flow c.rest c with
      | none => none
      | some ([], c) => some (text, g.broken, c)
      | some (word, c) =>
        let text := text ++ g.text ++ word
        if c.peek.any fun x => isBlank x || isBreak x then
          match Gap.read indent c.fuel {} c with
          | none => none
          | some (g, c) =>
            if !flow && c.column < indent then some (text, g.broken, c)
            else plainWords flow indent fuel text g c
        else some (text, false, c)

/-- A plain scalar, and whether a line has ended behind it. -/
def plain? (flow : Bool) (indent : Nat) (c : Cursor) : Option (Scalar × Bool × Cursor) :=
  (plainWords flow indent c.fuel [] {} c).map fun (text, broken, c) =>
    (⟨String.ofList text, .plain⟩, broken, c)

/-! ## Quoted scalars -/

def hexValue? (c : Char) : Option Nat :=
  if '0' ≤ c && c ≤ '9' then some (c.toNat - 48)
  else if 'a' ≤ c && c ≤ 'f' then some (c.toNat - 87)
  else if 'A' ≤ c && c ≤ 'F' then some (c.toNat - 55)
  else none

def hexNumber? (cs : List Char) : Option Nat :=
  cs.foldlM (fun n c => (hexValue? c).map (16 * n + ·)) 0

def unescape? (c : Char) : Option Char :=
  match c with
  | '0' => some '\x00'
  | 'a' => some '\x07'
  | 'b' => some '\x08'
  | 't' => some '\t'
  | '\t' => some '\t'
  | 'n' => some '\n'
  | 'v' => some '\x0b'
  | 'f' => some '\x0c'
  | 'r' => some '\r'
  | 'e' => some '\x1b'
  | ' ' => some ' '
  | '"' => some '"'
  | '/' => some '/'
  | '\\' => some '\\'
  | 'N' => some '\u0085'
  | '_' => some '\u00a0'
  | 'L' => some '\u2028'
  | 'P' => some '\u2029'
  | _ => none

/-- The number of digits behind a letter that begins a code point. -/
def codeLength? (c : Char) : Option Nat :=
  match c with
  | 'x' => some 2
  | 'u' => some 4
  | 'U' => some 8
  | _ => none

/-- The character that an escape stands for; the cursor is at the backslash. -/
def escape? (c : Cursor) : Option (Char × Cursor) :=
  match c.at? 1 with
  | none => none
  | some letter =>
    match codeLength? letter with
    | none => (unescape? letter).map fun x => (x, c.skip 2)
    | some n =>
      let digits := (c.skip 2).rest.take n
      if digits.length < n then none
      else
        match hexNumber? digits with
        | none => none
        | some code =>
          if (0xD800 ≤ code && code ≤ 0xDFFF) || 0x10FFFF < code then none
          else some (Char.ofNat code, c.skip (2 + n))

/-- The characters of a quoted scalar up to a blank or its end, and whether they end in an escaped
line break. -/
def quotedWord (single : Bool) :
    Nat → List Char → Cursor → Option (List Char × Bool × Cursor)
  | 0, word, c => some (word, false, c)
  | fuel + 1, word, c =>
    match c.peek with
    | none => some (word, false, c)
    | some x =>
      if isBlank x || isBreak x then some (word, false, c)
      else if single && x == '\'' && c.at? 1 == some '\'' then
        quotedWord single fuel (word ++ ['\'']) (c.skip 2)
      else if x == (if single then '\'' else '"') then some (word, false, c)
      else if !single && x == '\\' then
        if (c.at? 1).any isBreak then some (word, true, c.next.nextLine)
        else
          match escape? c with
          | none => none
          | some (x, c) => quotedWord single fuel (word ++ [x]) c
      else quotedWord single fuel (word ++ [x]) c.next

/-- The words of a quoted scalar and the quote behind them. -/
def quotedWords (single : Bool) : Nat → List Char → Cursor → Option (List Char × Cursor)
  | 0, _, _ => none
  | fuel + 1, text, c =>
    if c.endsDocument || c.peek.isNone then none
    else
      match quotedWord single c.fuel [] c with
      | none => none
      | some (word, escaped, c) =>
        if c.sees (if single then '\'' else '"') then some (text ++ word, c.next)
        else
          match Gap.read 0 c.fuel { broken := escaped } c with
          | none => none
          | some (g, c) => quotedWords single fuel (text ++ word ++ g.text) c

/-- A scalar in quotes; the cursor is at the first. -/
def quoted? (single : Bool) (c : Cursor) : Option (Scalar × Cursor) :=
  (quotedWords single c.fuel [] c.next).map fun (text, c) => (⟨String.ofList text, .quoted⟩, c)

/-! ## Block scalars -/

/-- What becomes of the line breaks at the end. -/
inductive Chomping where
  | clip
  | strip
  | keep
deriving DecidableEq, Repr, Inhabited

/-- What a sign in a header says about the end. -/
def chomping? (c : Char) : Option Chomping :=
  match c with
  | '+' => some .keep
  | '-' => some .strip
  | _ => none

/-- A header: the chomping and the indentation, in either order and both optional. -/
def header? (c : Cursor) : Option (Chomping × Nat × Cursor) :=
  let digit (c : Cursor) : Option (Nat × Cursor) :=
    match c.peek with
    | some d =>
      if d == '0' then none
      else if d.isDigit then some (d.toNat - 48, c.next)
      else some (0, c)
    | none => some (0, c)
  match c.peek.bind chomping? with
  | some chomping => (digit c.next).map fun (n, c) => (chomping, n, c)
  | none =>
    (digit c).map fun (n, c) =>
      match c.peek.bind chomping? with
      | some chomping => (chomping, n, c.next)
      | none => (.clip, n, c)

/-- The line breaks and the indentation before a line with text. The indentation is found by the
first such line if it is zero; it is at least `least`. -/
def blockBreaks (least : Nat) :
    Nat → Nat → Nat → List Char → Cursor → Option (Nat × List Char × Cursor)
  | 0, indent, _, breaks, c => some (indent, breaks, c)
  | fuel + 1, indent, widest, breaks, c =>
    let blanks := c.rest.takeWhile (· == ' ')
    let passed := if indent = 0 then blanks.length else min blanks.length (indent - c.column)
    let c := c.skip passed
    let widest := max widest c.column
    if (indent = 0 || c.column < indent) && c.sees '\t' then none
    else
      match c.peek with
      | some x =>
        if isBreak x then blockBreaks least fuel indent widest (breaks ++ [breakText x]) c.nextLine
        else some (if indent = 0 then max widest least else indent, breaks, c)
      | none => some (if indent = 0 then max widest least else indent, breaks, c)

/-- The lines of a block. `ended` is the line break behind the last line, `breaks` are those behind
it, and `blank` says whether the last line began with a blank. -/
def blockLines (folded : Bool) (indent : Nat) :
    Nat → List Char → List Char → List Char → Bool → Cursor →
      Option (List Char × List Char × List Char × Cursor)
  | 0, text, ended, breaks, _, c => some (text, ended, breaks, c)
  | fuel + 1, text, ended, breaks, blank, c =>
    if c.column != indent || c.peek.isNone then some (text, ended, breaks, c)
    else
      let startsBlank := c.peek.any isBlank
      let joint :=
        if folded && ended.head? == some '\n' && !blank && !startsBlank then
          if breaks.isEmpty then [' '] else []
        else ended
      let (line, c) := c.takeWhile (!isBreak ·)
      let ended := c.peek.toList.map breakText
      match blockBreaks 0 c.fuel indent 0 [] c.nextLine with
      | none => none
      | some (_, more, c) =>
        blockLines folded indent fuel (text ++ joint ++ breaks ++ line) ended more startsBlank c

/-- A scalar in a block inside the indentation `outer`; the cursor is at the mark. -/
def block? (folded : Bool) (outer : Int) (c : Cursor) : Option (Scalar × Cursor) :=
  match header? c.next with
  | none => none
  | some (chomping, increment, c) =>
    let c := c.skipComment
    if !endsLine c.peek then none
    else
      let c := c.nextLine
      let indent := if increment = 0 then 0 else (max outer 0).toNat + increment
      match blockBreaks (max (outer + 1) 1).toNat c.fuel indent 0 [] c with
      | none => none
      | some (indent, breaks, c) =>
        match blockLines folded indent c.fuel [] [] breaks false c with
        | none => none
        | some (text, ended, breaks, c) =>
          let tail :=
            match chomping with
            | .strip => []
            | .clip => ended
            | .keep => ended ++ breaks
          some (⟨String.ofList (text ++ tail), if folded then .folded else .literal⟩, c)

end Scalar

end CodeSmell.Yaml
