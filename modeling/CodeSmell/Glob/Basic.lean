/-!
# Path patterns

A pattern is a list of parts, and each part takes something off the front of a path. A path is seen
as its bytes, so that `any` and `oneOf` take a single byte, which may be a slash.

* `Part` : the parts;
* `leaf`, `after`, `afterAll` : what may be left of a path when parts have taken their share;
* `Glob` : a pattern; `Glob.admits` : whether it takes the whole of a path.
-/

namespace CodeSmell.Glob

abbrev Bytes := List UInt8

def bytes (s : String) : Bytes :=
  s.toList.flatMap String.utf8EncodeChar

def slash : UInt8 := 47

/-- A part of a pattern. -/
inductive Part where
  /-- This character. -/
  | char (c : Char)
  /-- Any one byte. -/
  | any
  /-- Any bytes. -/
  | many
  /-- Nothing, or any bytes and a slash. -/
  | anywhere
  /-- A slash and any bytes. -/
  | beneath
  /-- A slash, or any bytes between two. -/
  | between
  /-- A byte in one of some ranges, or in none of them. -/
  | oneOf (negated : Bool) (ranges : List (Char × Char))
  /-- What one of some lists of parts takes. -/
  | choice (branches : List (List Part))
deriving Repr, Inhabited

/-! ## What one part takes -/

/-- What is left of a text behind each of its places. -/
def suffixes : Bytes → List Bytes
  | [] => [[]]
  | b :: rest => (b :: rest) :: suffixes rest

/-- What is left of a text behind each of its slashes. -/
def behindSlashes : Bytes → List Bytes
  | [] => []
  | b :: rest => if b == slash then rest :: behindSlashes rest else behindSlashes rest

/-- What is left of a text behind a start, if it starts so. -/
def without? : Bytes → Bytes → Option Bytes
  | [], s => some s
  | _ :: _, [] => none
  | a :: start, b :: s => if a == b then without? start s else none

/-- The ranges of bytes that a range of characters stands for: the last byte of the first and the
first byte of the last are joined, any others stand for themselves. -/
def byteRanges (range : Char × Char) : List (UInt8 × UInt8) :=
  let low := String.utf8EncodeChar range.1
  let high := String.utf8EncodeChar range.2
  if range.1 == range.2 then low.map fun b => (b, b)
  else
    low.dropLast.map (fun b => (b, b)) ++ low.getLast?.toList.zip high.head?.toList ++
      high.tail.map fun b => (b, b)

def inRanges (ranges : List (Char × Char)) (b : UInt8) : Bool :=
  (ranges.flatMap byteRanges).any fun (low, high) => low ≤ b && b ≤ high

/-- What may be left of a text behind a part that is no choice. -/
def leaf (p : Part) (s : Bytes) : List Bytes :=
  match p, s with
  | .char c, s => (without? (String.utf8EncodeChar c) s).toList
  | .any, _ :: rest => [rest]
  | .many, s => suffixes s
  | .anywhere, s => s :: behindSlashes s
  | .beneath, b :: rest => if b == slash then suffixes rest else []
  | .between, b :: rest => if b == slash then rest :: behindSlashes rest else []
  | .oneOf negated ranges, b :: rest => if inRanges ranges b != negated then [rest] else []
  | _, _ => []

/-! ## What many parts take -/

mutual

/-- Whether a part is a choice between nothing and nothing. -/
def Part.isIdle : Part → Bool
  | .choice branches => areIdle branches
  | _ => false

def isIdle : List Part → Bool
  | [] => true
  | p :: rest => p.isIdle && isIdle rest

def areIdle : List (List Part) → Bool
  | [] => true
  | ps :: rest => isIdle ps && areIdle rest

end

mutual

/-- What may be left of some texts behind a part. -/
def after : Part → List Bytes → List Bytes
  | .choice branches, texts =>
    if areIdle branches then texts else (afterAny branches texts).eraseDups
  | p, texts => (texts.flatMap (leaf p)).eraseDups

def afterAll : List Part → List Bytes → List Bytes
  | [], texts => texts
  | p :: rest, texts => afterAll rest (after p texts)

/-- What may be left of some texts behind one of some lists of parts. Idle ones do not count. -/
def afterAny : List (List Part) → List Bytes → List Bytes
  | [], _ => []
  | ps :: rest, texts => (if isIdle ps then [] else afterAll ps texts) ++ afterAny rest texts

end

end CodeSmell.Glob

namespace CodeSmell

/-- A pattern. -/
structure Glob where
  parts : List Glob.Part
deriving Repr, Inhabited

namespace Glob

/-- Whether a pattern takes the whole of a path. Two stars alone take any. -/
def admits (g : Glob) (path : String) : Bool :=
  match g.parts with
  | [.anywhere] => true
  | parts => (afterAll parts [bytes path]).contains []

end Glob

end CodeSmell
