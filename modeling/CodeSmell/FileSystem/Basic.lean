import CodeSmell.Path

/-!
# File systems

A file system is a tree of directories and files, with a directory in it that relative paths start
from. Nothing in it is a link, and nothing is forbidden.

* `Entry` : a file or a directory; `Entry.at?` : the entry below some names;
* `Fault`, `Fault.message` : why an operation cannot be done;
* `FileSystem.resolve` : the names that a path leads through, without dots;
* `FileSystem.entry?`, `read`, `canonical`, `absolute` : what stands at a path, and where it is.
-/

namespace CodeSmell

/-- A file or a directory. -/
inductive Entry where
  | file (name : String) (content : ByteArray)
  | directory (name : String) (entries : List Entry)
deriving Inhabited

namespace Entry

def name : Entry → String
  | file name _ => name
  | directory name _ => name

def isDirectory : Entry → Bool
  | directory _ _ => true
  | file _ _ => false

def child? (e : Entry) (name : String) : Option Entry :=
  match e with
  | directory _ entries => entries.find? (·.name == name)
  | file _ _ => none

def at? (e : Entry) : List String → Option Entry
  | [] => some e
  | name :: rest => (e.child? name).bind (·.at? rest)

/-- Some entries with that of some name changed. An entry that is missing is put last, and one that
is changed to nothing is left out. -/
def alterIn (name : String) (change : Option Entry → Option Entry) : List Entry → List Entry
  | [] => (change none).toList
  | e :: rest =>
    if e.name == name then (change (some e)).toList ++ rest else e :: alterIn name change rest

/-- A directory with the entry below some names changed; those above it have to be directories. -/
def alter (change : Option Entry → Option Entry) : List String → Entry → Entry
  | [name], directory d entries => directory d (alterIn name change entries)
  | name :: rest, directory d entries =>
    directory d (alterIn name (fun e => e.map (alter change rest)) entries)
  | _, e => e

end Entry

/-- A file system. -/
structure FileSystem where
  root : Entry
  /-- The names that lead to the directory that relative paths start from. -/
  working : List String := []
deriving Inhabited

namespace FileSystem

/-- Why an operation cannot be done. -/
inductive Fault where
  | notFound
  | alreadyThere
  | notDirectory
  | isDirectory
  | nameTooLong
  | nul
deriving DecidableEq, Repr, Inhabited

def Fault.message : Fault → String
  | notFound => "No such file or directory (os error 2)"
  | alreadyThere => "File exists (os error 17)"
  | notDirectory => "Not a directory (os error 20)"
  | isDirectory => "Is a directory (os error 21)"
  | nameTooLong => "File name too long (os error 36)"
  | nul => "file name contained an unexpected NUL byte"

def nameLimit : Nat := 255

/-- The number of bytes that a path has to stay below. -/
def pathLimit : Nat := 4096

/-- The names where one segment more leads to. -/
def step (fs : FileSystem) (names : List String) (segment : String) : Except Fault (List String) :=
  match fs.root.at? names with
  | none => .error .notFound
  | some (.file _ _) => .error .notDirectory
  | some d =>
    if segment == "" || segment == "." then .ok names
    else if segment == ".." then .ok names.dropLast
    else if nameLimit < segment.utf8ByteSize then .error .nameTooLong
    else if (d.child? segment).isSome then .ok (names ++ [segment])
    else .error .notFound

def start (fs : FileSystem) (path : String) : List String :=
  if Path.isAbsolute path then [] else fs.working

def follow (fs : FileSystem) (path : String) (segments : List String) :
    Except Fault (List String) :=
  segments.foldlM fs.step (fs.start path)

/-- The names that a path leads to, dots followed. -/
def resolve (fs : FileSystem) (path : String) : Except Fault (List String) :=
  if path.toList.contains '\x00' then .error .nul
  else if path.isEmpty then .error .notFound
  else fs.follow path (Path.segments path)

/-- The fault of a path that no operation takes, wherever it leads. -/
def refused? (path : String) : Option Fault :=
  if path.toList.contains '\x00' then some .nul
  else if path.isEmpty then some .notFound
  else if pathLimit ≤ path.utf8ByteSize then some .nameTooLong
  else none

/-- The names that a path leads to, for operations that refuse long ones. -/
def locate (fs : FileSystem) (path : String) : Except Fault (List String) :=
  match refused? path with
  | some f => .error f
  | none => fs.resolve path

def entry? (fs : FileSystem) (path : String) : Option Entry :=
  match fs.locate path with
  | .ok names => fs.root.at? names
  | .error _ => none

def isFile (fs : FileSystem) (path : String) : Bool :=
  (fs.entry? path).any (!·.isDirectory)

def isDirectory (fs : FileSystem) (path : String) : Bool :=
  (fs.entry? path).any (·.isDirectory)

def holds (fs : FileSystem) (path : String) : Bool :=
  (fs.entry? path).isSome

def read (fs : FileSystem) (path : String) : Except Fault ByteArray :=
  (fs.locate path).bind fun names =>
    match fs.root.at? names with
    | none => .error .notFound
    | some (.file _ content) => .ok content
    | some (.directory _ _) => .error .isDirectory

/-- The absolute path without dots that leads where a path does. -/
def canonical (fs : FileSystem) (path : String) : Except Fault String :=
  (fs.resolve path).map Path.ofNames

/-- The same, or the path itself if it leads nowhere. -/
def absolute (fs : FileSystem) (path : String) : String :=
  match fs.canonical path with
  | .ok full => full
  | .error _ => path

end FileSystem

end CodeSmell
