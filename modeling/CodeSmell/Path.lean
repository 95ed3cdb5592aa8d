/-!
# Paths

A path is a text with slashes. What it means is the list of its components; empty ones and dots
inside it mean nothing.

* `segments`, `components` : the parts between slashes, and those that mean something;
* `fileName?`, `extension?`, `parent?`, `join` : taking paths apart and putting them together;
* `relativeTo?` : what is left of a path below a base.
-/

namespace CodeSmell.Path

/-- A step of a path. -/
inductive Component where
  /-- The slash that an absolute path begins with. -/
  | root
  /-- A dot that a relative path begins with. -/
  | here
  /-- Two dots. -/
  | up
  | name (name : String)
deriving DecidableEq, Repr, Inhabited

def splitSlash : List Char → List (List Char)
  | [] => [[]]
  | c :: rest =>
    if c = '/' then [] :: splitSlash rest
    else
      match splitSlash rest with
      | [] => [[c]]
      | segment :: more => (c :: segment) :: more

theorem splitSlash_ne_nil (cs : List Char) : splitSlash cs ≠ [] := by
  cases cs with
  | nil => simp [splitSlash]
  | cons c rest =>
    rw [splitSlash]
    split
    · simp
    · split <;> simp

/-- The parts between slashes, empty ones included. -/
def segments (path : String) : List String :=
  (splitSlash path.toList).map String.ofList

def isAbsolute (path : String) : Bool :=
  path.toList.head? == some '/'

/-- What a segment behind the first means. -/
def component? (segment : String) : Option Component :=
  if segment == "" || segment == "." then none
  else if segment == ".." then some .up
  else some (.name segment)

/-- What the first segment of a path means. -/
def firstComponent? (path segment : String) : Option Component :=
  if segment == "" then if isAbsolute path then some .root else none
  else if segment == "." then some .here
  else component? segment

def components (path : String) : List Component :=
  match segments path with
  | [] => []
  | first :: rest => (firstComponent? path first).toList ++ rest.filterMap component?

def same (a b : String) : Bool :=
  components a == components b

/-- The last step, if it is a name. -/
def fileName? (path : String) : Option String :=
  match (components path).getLast? with
  | some (.name n) => some n
  | _ => none

/-- What stands behind the last dot of a file name, unless only that dot begins the name. -/
def nameExtension? (name : String) : Option String :=
  let backwards := name.toList.reverse
  match backwards.dropWhile (· != '.') with
  | [] => none
  | _ :: stem =>
    if stem.isEmpty then none else some (String.ofList (backwards.takeWhile (· != '.')).reverse)

def extension? (path : String) : Option String :=
  (fileName? path).bind nameExtension?

/-- Whether a segment means nothing where it stands. -/
def isIdle (segment : String) : Bool :=
  (component? segment).isNone

/-- Segments without the idle ones at either end, with slashes between them. -/
def trimmed (segments : List String) : String :=
  let rest := segments.dropWhile isIdle
  "/".intercalate (rest.reverse.dropWhile isIdle).reverse

def dropSteps : Nat → List String → List String
  | 0, segments => segments
  | _, [] => []
  | n + 1, segment :: rest => if isIdle segment then dropSteps (n + 1) rest else dropSteps n rest

/-- Leaves out the segments that make up the first `n` steps of a path, the first of which may be
the root or a dot. -/
def dropComponents (path : String) (n : Nat) : List String :=
  match n, segments path with
  | 0, all => all
  | _, [] => []
  | n + 1, first :: rest =>
    if (firstComponent? path first).isSome then dropSteps n rest else dropSteps (n + 1) rest

/-- What is left of a path below a base, both taken step by step. -/
def relativeTo? (base path : String) : Option String :=
  let steps := components base
  if steps.isPrefixOf (components path) then
    some (trimmed (dropComponents path steps.length))
  else none

def Component.text : Component → String
  | root => "/"
  | here => "."
  | up => ".."
  | name n => n

def ofComponents : List Component → String
  | .root :: rest => "/" ++ "/".intercalate (rest.map Component.text)
  | steps => "/".intercalate (steps.map Component.text)

/-- The path without its last step; the root and the empty path have none. -/
def parent? (path : String) : Option String :=
  let steps := components path
  match steps.getLast? with
  | none => none
  | some .root => none
  | some _ => some (ofComponents steps.dropLast)

/-- A path seen from a directory. -/
def join (directory path : String) : String :=
  if isAbsolute path || directory.isEmpty then path
  else if directory.toList.getLast? == some '/' then directory ++ path
  else directory ++ "/" ++ path

/-- The absolute path with these names. -/
def ofNames (names : List String) : String :=
  "/" ++ "/".intercalate names

end CodeSmell.Path
