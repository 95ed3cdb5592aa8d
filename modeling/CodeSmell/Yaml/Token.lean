import CodeSmell.Yaml.Scalar

/-!
# Tokens

A document is first cut into tokens. Indentation opens and closes blocks, and so has tokens of its
own; a key is known for one only when the colon behind it is met, and its token is then put in
front of what has been read since.

* `Token` : the tokens;
* `Lexing` : what has been read, the open blocks, and the places where a key may have begun;
* `Lexing.token?` : reads the next token;
* `Token.scan?` : all tokens of a text.
-/

namespace CodeSmell.Yaml

/-- The tokens of a document. -/
inductive Token where
  | version (major minor : Nat)
  | tagHandle (handle start : String)
  | documentStart
  | documentEnd
  | sequenceStart
  | mappingStart
  | blockEnd
  | openBracket
  | closeBracket
  | openBrace
  | closeBrace
  | entry
  | comma
  | key
  | value
  | reference (name : String)
  | anchor (name : String)
  | tag (handle suffix : String)
  | scalar (s : Scalar)
deriving DecidableEq, Repr, Inhabited

/-- A place where a key may have begun. -/
structure Candidate where
  /-- Whether nothing but a key may stand there. -/
  required : Bool
  index : Nat
  line : Nat
  column : Nat
  /-- The number of tokens before it. -/
  position : Nat
deriving Repr, Inhabited

/-- The state of reading tokens. -/
structure Lexing where
  cursor : Cursor
  tokens : Array Token := #[]
  /-- The column of the innermost open block, or -1. -/
  indent : Int := -1
  /-- The columns of the blocks around it. -/
  outer : List Int := []
  /-- Whether a key may begin here. -/
  keyAllowed : Bool := true
  /-- The last candidate of the innermost collection. -/
  candidate : Option Candidate := none
  /-- The last candidates of the flow collections around it, and of the block around those. -/
  around : List (Option Candidate) := []
deriving Repr, Inhabited

namespace Lexing

def inFlow (l : Lexing) : Bool :=
  !l.around.isEmpty

def push (l : Lexing) (t : Token) : Lexing :=
  { l with tokens := l.tokens.push t }

/-- With a token in front of some that have been read. -/
def insert (l : Lexing) (position : Nat) (t : Token) : Lexing :=
  { l with tokens := l.tokens.insertIdxIfInBounds position t }

/-! ## Blocks -/

/-- Closes the blocks that are indented more than a column. -/
def closeBlocks (column : Int) : List Int → Lexing → Lexing
  | [], l => l
  | indent :: outer, l =>
    if column < l.indent then
      let l := l.push .blockEnd
      closeBlocks column outer { l with indent := indent, outer := outer }
    else l

/-- Closes the blocks that are indented more than a column, outside flow collections. -/
def unindent (l : Lexing) (column : Int) : Lexing :=
  if l.inFlow then l else closeBlocks column l.outer l

/-- Opens a block at a column if it is indented more than the innermost. -/
def indentTo (l : Lexing) (column : Nat) (position : Nat) (t : Token) : Lexing :=
  if l.inFlow || !(l.indent < column) then l
  else { l.insert position t with indent := column, outer := l.indent :: l.outer }

/-! ## Keys -/

/-- Gives up the last candidate; a required one may not be given up. -/
def dropCandidate? (l : Lexing) : Option Lexing :=
  if l.candidate.any (·.required) then none else some { l with candidate := none }

/-- Makes this place a candidate if a key may begin here. -/
def addCandidate? (l : Lexing) : Option Lexing :=
  if l.keyAllowed then
    l.dropCandidate?.map fun l =>
      let k : Candidate :=
        { required := !l.inFlow && l.indent == l.cursor.column
          index := l.cursor.index
          line := l.cursor.line
          column := l.cursor.column
          position := l.tokens.size }
      { l with candidate := some k }
  else some l

/-- Whether the colon of a candidate may no longer come: it has to be on the same line, and not
far. -/
def isStale (l : Lexing) (k : Candidate) : Bool :=
  k.line < l.cursor.line || k.index + 1024 < l.cursor.index

/-- A candidate, unless its colon may no longer come. -/
def fresh (l : Lexing) (k : Option Candidate) : Option Candidate :=
  k.filter (!l.isStale ·)

/-- Gives up all candidates whose colon may no longer come, none of which may be required. -/
def dropStale? (l : Lexing) : Option Lexing :=
  if (l.candidate :: l.around).any fun k => k.any fun k => k.required && l.isStale k then none
  else some { l with candidate := l.fresh l.candidate, around := l.around.map l.fresh }

/-! ## Between tokens -/

/-- Passes blanks, comments and line breaks. A line may begin with a byte order mark, but not with
a tab where a key is allowed. -/
def skipBlanks : Nat → Lexing → Lexing
  | 0, l => l
  | fuel + 1, l =>
    let c := l.cursor
    let c := if c.column == 0 && c.sees '\ufeff' then c.next else c
    let c := c.dropWhile fun x => x == ' ' || (x == '\t' && (l.inFlow || !l.keyAllowed))
    let c := if c.sees '#' then c.dropWhile (!isBreak ·) else c
    if c.peek.any isBreak then
      skipBlanks fuel { l with cursor := c.nextLine, keyAllowed := l.keyAllowed || !l.inFlow }
    else { l with cursor := c }

/-! ## Names and tags -/

/-- The marks that may stand right behind a name. -/
def endsName (c : Option Char) : Bool :=
  endsWord c || c.any fun x => ['?', ':', ',', ']', '\x7d', '%', '@', '\u0060'].contains x

/-- The name of an anchor or alias; the cursor is at its mark. -/
def name? (c : Cursor) : Option (String × Cursor) :=
  let (name, c) := c.next.takeWhile isWord
  if name.isEmpty || !endsName c.peek then none else some (String.ofList name, c)

/-- The characters of a tag, some of them only where no comma or bracket can end it. -/
def isTagChar (full : Bool) (c : Char) : Bool :=
  isWord c ||
    [';', '/', '?', ':', '@', '&', '=', '+', '$', '.', '%', '!', '~', '*', '\'', '(', ')'].contains
      c ||
    (full && [',', '[', ']'].contains c)

/-- A text with each percent sign and its two digits replaced by the byte they stand for. -/
def unescapeTag? : List Char → Option (List Char)
  | [] => some []
  | '%' :: a :: b :: rest =>
    match Scalar.hexNumber? [a, b] with
    | some n => (unescapeTag? rest).map (Char.ofNat n :: ·)
    | none => none
  | '%' :: _ => none
  | c :: rest => (unescapeTag? rest).map (c :: ·)

def tagRest? (full : Bool) (read : List Char) (c : Cursor) : Option (String × Cursor) :=
  let (rest, c) := c.takeWhile (isTagChar full)
  if read.isEmpty && rest.isEmpty then none
  else (unescapeTag? rest).map fun rest => (String.ofList (read.drop 1 ++ rest), c)

/-- An exclamation mark, a name, and another mark if one follows. -/
def tagHandle (c : Cursor) : List Char × Cursor :=
  let (name, c) := c.next.takeWhile isWord
  if c.sees '!' then ('!' :: name ++ ['!'], c.next) else ('!' :: name, c)

/-- A tag in angle brackets, with a handle, or by itself. -/
def tag? (l : Lexing) : Option (Token × Cursor) :=
  let c := l.cursor
  let found : Option (Token × Cursor) :=
    if c.at? 1 == some '<' then
      match tagRest? true [] (c.skip 2) with
      | some (suffix, c) => if c.sees '>' then some (.tag "" suffix, c.next) else none
      | none => none
    else
      let (handle, c) := tagHandle c
      if 1 < handle.length && handle.getLast? == some '!' then
        (tagRest? false [] c).map fun (suffix, c) => (.tag (String.ofList handle) suffix, c)
      else
        (tagRest? false handle c).map fun (suffix, c) =>
          (if suffix.isEmpty then .tag "" "!" else .tag "!" suffix, c)
  found.filter fun (_, c) => (l.inFlow && c.sees ',') || endsWord c.peek

/-! ## Directives -/

/-- A number of at most nine digits. -/
def versionNumber? (c : Cursor) : Option (Nat × Cursor) :=
  let (digits, c) := c.takeWhile Char.isDigit
  if digits.isEmpty || 9 < digits.length then none
  else some (digits.foldl (fun n d => 10 * n + (d.toNat - 48)) 0, c)

def versionDirective? (c : Cursor) : Option (Token × Cursor) :=
  match versionNumber? (c.dropWhile isBlank) with
  | none => none
  | some (major, c) =>
    if c.sees '.' then (versionNumber? c.next).map fun (minor, c) => (.version major minor, c)
    else none

def tagDirective? (c : Cursor) : Option (Token × Cursor) :=
  let c := c.dropWhile isBlank
  if !c.sees '!' then none
  else
    let (handle, c) := tagHandle c
    if (1 < handle.length && handle.getLast? != some '!') || !c.peek.any isBlank then none
    else
      match tagRest? true [] (c.dropWhile isBlank) with
      | some (start, c) =>
        if endsWord c.peek then some (.tagHandle (String.ofList handle) start, c) else none
      | none => none

def directive? (c : Cursor) : Option (Token × Cursor) :=
  let (name, c) := c.next.takeWhile isWord
  if name.isEmpty || !endsWord c.peek then none
  else
    let found :=
      if name == ['Y', 'A', 'M', 'L'] then versionDirective? c
      else if name == ['T', 'A', 'G'] then tagDirective? c
      else none
    found.bind fun (t, c) =>
      let c := c.skipComment
      if endsLine c.peek then some (t, c.nextLine) else none

/-! ## One token -/

/-- With a token that has been read up to a place. -/
def take (l : Lexing) (t : Token) (c : Cursor) : Lexing :=
  { l.push t with cursor := c }

def mark (l : Lexing) (n : Nat) (t : Token) : Lexing :=
  l.take t (l.cursor.skip n)

/-- A line that begins or ends a document, or a directive: all blocks end here. -/
def outside? (l : Lexing) : Option Lexing :=
  (l.unindent (-1)).dropCandidate?.map fun l => { l with keyAllowed := false }

/-- The start of a flow collection, which may be a key. -/
def openFlow? (l : Lexing) (t : Token) : Option Lexing :=
  l.addCandidate?.map fun l =>
    { l.mark 1 t with candidate := none, around := l.candidate :: l.around, keyAllowed := true }

def closeFlow? (l : Lexing) (t : Token) : Option Lexing :=
  l.dropCandidate?.map fun l =>
    let l :=
      match l.around with
      | candidate :: around => { l with candidate := candidate, around := around }
      | [] => l
    { l.mark 1 t with keyAllowed := false }

def comma? (l : Lexing) : Option Lexing :=
  l.dropCandidate?.map fun l => { l.mark 1 .comma with keyAllowed := true }

def entry? (l : Lexing) : Option Lexing :=
  if !l.inFlow && !l.keyAllowed then none
  else
    (l.indentTo l.cursor.column l.tokens.size .sequenceStart).dropCandidate?.map fun l =>
      { l.mark 1 .entry with keyAllowed := true }

def key? (l : Lexing) : Option Lexing :=
  if !l.inFlow && !l.keyAllowed then none
  else
    (l.indentTo l.cursor.column l.tokens.size .mappingStart).dropCandidate?.map fun l =>
      { l.mark 1 .key with keyAllowed := !l.inFlow }

/-- The colon of a value: the last candidate was a key, or there is no key on this line. -/
def value? (l : Lexing) : Option Lexing :=
  match l.candidate with
  | some k =>
    let l := (l.insert k.position .key).indentTo k.column k.position .mappingStart
    some { l.mark 1 .value with candidate := none, keyAllowed := false }
  | none =>
    if !l.inFlow && !l.keyAllowed then none
    else
      let l := l.indentTo l.cursor.column l.tokens.size .mappingStart
      some { l.mark 1 .value with keyAllowed := !l.inFlow }

/-- An anchor, alias, tag or scalar, which may be a key. -/
def word? (l : Lexing) (read : Cursor → Option (Token × Cursor)) : Option Lexing :=
  l.addCandidate?.bind fun l =>
    (read l.cursor).map fun (t, c) => { l.take t c with keyAllowed := false }

/-- A block scalar, which is no key. -/
def block? (l : Lexing) (folded : Bool) : Option Lexing :=
  l.dropCandidate?.bind fun l =>
    (Scalar.block? folded l.indent l.cursor).map fun (s, c) =>
      { l.take (.scalar s) c with keyAllowed := true }

/-- A plain scalar, which may be a key; behind a line break a new key may begin. -/
def plain? (l : Lexing) : Option Lexing :=
  l.addCandidate?.bind fun l =>
    (Scalar.plain? l.inFlow (l.indent + 1).toNat l.cursor).map fun (s, broken, c) =>
      { l.take (.scalar s) c with keyAllowed := broken }

/-- The characters that no plain scalar begins with, unless the next one says so. -/
def marks : List Char :=
  ['-', '?', ':', ',', '[', ']', '\x7b', '\x7d', '#', '&', '*', '!', '|', '>', '\'', '"', '%', '@',
    '\u0060']

def beginsPlain (l : Lexing) (x : Char) : Bool :=
  let next := l.cursor.at? 1
  !marks.contains x || (x == '-' && !next.any isBlank) ||
    (!l.inFlow && (x == '?' || x == ':') && !endsWord next)

/-- Reads the token that begins with `x`, which is the next character. -/
def tokenAt? (l : Lexing) (x : Char) : Option Lexing :=
  let c := l.cursor
  let alone := l.inFlow || endsWord (c.at? 1)
  if c.column == 0 && x == '%' then
    l.outside?.bind fun l => (directive? l.cursor).map fun (t, c) => l.take t c
  else if c.isDocumentMark '-' then l.outside?.map (·.mark 3 .documentStart)
  else if c.isDocumentMark '.' then l.outside?.map (·.mark 3 .documentEnd)
  else if x == '[' then l.openFlow? .openBracket
  else if x == '\x7b' then l.openFlow? .openBrace
  else if x == ']' then l.closeFlow? .closeBracket
  else if x == '\x7d' then l.closeFlow? .closeBrace
  else if x == ',' then l.comma?
  else if x == '-' && endsWord (c.at? 1) then l.entry?
  else if x == '?' && alone then l.key?
  else if x == ':' && alone then l.value?
  else if x == '*' then l.word? fun c => (name? c).map fun (n, c) => (.reference n, c)
  else if x == '&' then l.word? fun c => (name? c).map fun (n, c) => (.anchor n, c)
  else if x == '!' then l.word? fun _ => l.tag?
  else if x == '|' && !l.inFlow then l.block? false
  else if x == '>' && !l.inFlow then l.block? true
  else if x == '\'' then l.word? fun c => (Scalar.quoted? true c).map fun (s, c) => (.scalar s, c)
  else if x == '"' then l.word? fun c => (Scalar.quoted? false c).map fun (s, c) => (.scalar s, c)
  else if l.beginsPlain x then l.plain?
  else none

def run? : Nat → Lexing → Option Lexing
  | 0, _ => none
  | fuel + 1, l =>
    match (skipBlanks l.cursor.fuel l).dropStale? with
    | none => none
    | some l =>
      let l := l.unindent l.cursor.column
      match l.cursor.peek with
      | none => l.outside?
      | some x => (l.tokenAt? x).bind (run? fuel)

end Lexing

namespace Token

def isAllowed (c : Char) : Bool :=
  let n := c.toNat
  n == 0x09 || n == 0x0A || n == 0x0D || (0x20 ≤ n && n ≤ 0x7E) || n == 0x85 ||
    (0xA0 ≤ n && n ≤ 0xFFFD) || 0x10000 ≤ n

/-- The tokens of a text, or nothing if it cannot be cut into tokens. -/
def scan? (text : String) : Option (List Token) :=
  let cs := text.toList
  if !cs.all isAllowed then none
  else
    let c : Cursor := { rest := cs }
    (Lexing.run? (c.fuel + 1) { cursor := c }).map (·.tokens.toList)

end Token

end CodeSmell.Yaml
