import CodeSmell.Glob.Basic

/-!
# Reading path patterns

* `Fault`, `BadPattern` : what can be wrong with a pattern;
* `Reading` : the parts read so far, and the groups that are open;
* `Reading.run` : reads a pattern to its end, in a class or outside;
* `Glob.parse`, `Glob.parseAll` : the patterns that texts write.
-/

namespace CodeSmell.Glob

/-- What is wrong with a pattern. -/
inductive Fault where
  /-- A class without an end. -/
  | unclosedClass
  /-- A range in a class that ends before it begins. -/
  | backwardRange (low high : Char)
  /-- A group without an end. -/
  | unclosedGroup
  /-- The end of a group that has not begun. -/
  | unopenedGroup
  /-- A backslash at the end. -/
  | danglingEscape
deriving DecidableEq, Repr, Inhabited

namespace Fault

def label : Fault → String
  | unclosedClass => "unclosed character class; missing ']'"
  | backwardRange low high => "invalid range; '" ++ low.toString ++ "' > '" ++ high.toString ++ "'"
  | unclosedGroup =>
    "unclosed alternate group; missing '\x7d' (maybe escape '\x7b' with '[\x7b]'?)"
  | unopenedGroup =>
    "unopened alternate group; missing '\x7b' (maybe escape '\x7d' with '[\x7d]'?)"
  | danglingEscape => "dangling '\\'"

end Fault

/-- A pattern that cannot be read. -/
structure BadPattern where
  pattern : String
  fault : Fault
deriving DecidableEq, Repr, Inhabited

def BadPattern.message (b : BadPattern) : String :=
  "error parsing glob '" ++ b.pattern ++ "': " ++ b.fault.label

/-- A group that is open. -/
structure Group where
  /-- The parts before the group, the last first. -/
  before : List Part
  /-- The branches that have ended. -/
  branches : List (List Part)
deriving Repr, Inhabited

/-- A class that is open. -/
structure ByteClass where
  negated : Bool
  /-- The ranges, the last first. -/
  ranges : List (Char × Char) := []
  /-- Whether a dash has been read that may join the last character with the next. -/
  joining : Bool := false
deriving Repr, Inhabited

namespace ByteClass

/-- The class with the dash as a character if it joins nothing. -/
def finish (k : ByteClass) : Part :=
  .oneOf k.negated (if k.joining then ('-', '-') :: k.ranges else k.ranges).reverse

/-- Reads a character of the class that does not end it. -/
def add (k : ByteClass) (c : Char) : Except Fault ByteClass :=
  match k.joining, k.ranges with
  | true, (low, _) :: rest =>
    if c < low then .error (.backwardRange low c)
    else .ok { k with ranges := (low, c) :: rest, joining := false }
  | _, ranges =>
    if c == '-' && !ranges.isEmpty then .ok { k with joining := true }
    else .ok { k with ranges := (c, c) :: ranges }

end ByteClass

/-- The state of reading a pattern. -/
structure Reading where
  /-- The parts of the innermost group, or of the pattern, the last first. -/
  parts : List Part := []
  groups : List Group := []
  /-- The character before. -/
  previous : Option Char := none
  /-- The class that is open. -/
  inside : Option ByteClass := none
deriving Repr, Inhabited

namespace Reading

def push (r : Reading) (p : Part) : Reading :=
  { r with parts := p :: r.parts }

def inGroup (r : Reading) : Bool :=
  !r.groups.isEmpty

def openGroup (r : Reading) : Reading :=
  { r with parts := [], groups := ⟨r.parts, []⟩ :: r.groups }

/-- Ends a branch; outside groups a comma is only a character. -/
def comma (r : Reading) : Reading :=
  match r.groups with
  | [] => r.push (.char ',')
  | g :: outer =>
    { r with
      parts := []
      groups := { g with branches := g.branches ++ [r.parts.reverse] } :: outer }

def closeGroup (r : Reading) : Except Fault Reading :=
  match r.groups with
  | [] => .error .unopenedGroup
  | g :: outer =>
    .ok { r with
      parts := .choice (g.branches ++ [r.parts.reverse]) :: g.before
      groups := outer }

/-- Puts a part in the place of the last, which was a slash; a part that already takes whatever
lies above or below stays. -/
def replace (r : Reading) (p : Part) : Reading :=
  match r.parts with
  | .anywhere :: _ => r
  | .beneath :: _ => r
  | _ :: rest => { r with parts := p :: rest }
  | [] => r

/-- Whether two stars may stand for whole steps of a path behind what has been read. -/
def endsStep (r : Reading) : Bool :=
  r.previous == some '/' || (r.inGroup && (r.previous == some ',' || r.previous == some '\x7b'))

/-- Two stars before a character: they stand for whole steps if they begin the pattern or a branch,
or follow a slash, and a slash follows or the pattern or branch ends. Tells also whether the slash
belongs to them. -/
def twoStars (r : Reading) (next : Option Char) : Reading × Bool :=
  let loose := ((r.push .many).push .many, false)
  if r.parts.isEmpty then
    match next with
    | none => (r.push .anywhere, false)
    | some '/' => (r.push .anywhere, true)
    | some _ => loose
  else if !r.endsStep then loose
  else
    match next with
    | none => (r.replace .beneath, false)
    | some '/' => (r.replace .between, true)
    | some c =>
      if r.inGroup && (c == ',' || c == '\x7d') then (r.replace .beneath, false) else loose

/-- With the character before the next one. -/
def past (r : Reading) (c : Char) : Reading :=
  { r with previous := some c }

def openClass (r : Reading) (negated : Bool) : Reading :=
  { r with inside := some { negated := negated } }

def inClass (r : Reading) (k : ByteClass) (c : Char) : Except Fault Reading :=
  if c == ']' && !k.ranges.isEmpty then .ok { r.push k.finish with inside := none }
  else (k.add c).map fun k => { r with inside := some k }

/-- Reads a character that stands by itself outside classes. -/
def single (r : Reading) (c : Char) : Except Fault Reading :=
  match c with
  | '?' => .ok (r.push .any)
  | '*' => .ok (r.push .many)
  | '\x7b' => .ok r.openGroup
  | '\x7d' => r.closeGroup
  | ',' => .ok r.comma
  | c => .ok (r.push (.char c))

def run (r : Reading) : List Char → Except Fault Reading
  | [] => .ok r
  | c :: rest =>
    match r.inside with
    | some k => (r.inClass k c).bind fun r => (r.past c).run rest
    | none =>
      match c, rest with
      | '[', '!' :: rest => ((r.openClass true).past '!').run rest
      | '[', '^' :: rest => ((r.openClass true).past '^').run rest
      | '[', rest => ((r.openClass false).past '[').run rest
      | '\\', [] => .error .danglingEscape
      | '\\', c :: rest => ((r.push (.char c)).past c).run rest
      | '*', '*' :: rest =>
        let (r, withSlash) := r.twoStars rest.head?
        match rest, withSlash with
        | _ :: rest, true => (r.past '/').run rest
        | rest, _ => (r.past '*').run rest
      | c, rest => (r.single c).bind fun r => (r.past c).run rest

def finish (r : Reading) : Except Fault (List Part) :=
  if r.inside.isSome then .error .unclosedClass
  else if r.inGroup then .error .unclosedGroup
  else .ok r.parts.reverse

end Reading

def parse (pattern : String) : Except BadPattern Glob :=
  match (Reading.run {} pattern.toList).bind Reading.finish with
  | .ok parts => .ok ⟨parts⟩
  | .error f => .error ⟨pattern, f⟩

/-- The patterns that some texts write; the first that cannot be read is told. -/
def parseAll (patterns : List String) : Except BadPattern (List Glob) :=
  patterns.mapM parse

end CodeSmell.Glob
