import CodeSmell.FileSystem.Basic

/-!
# Changing a file system

* `write` : makes a file, or replaces its content;
* `makeDirectory`, `makeDirectories` : make a directory, the latter also those above it;
* `remove` : takes a file or a directory away.
-/

namespace CodeSmell.FileSystem

/-- The last segment of a path with something in it, those before it, and whether a slash follows
it. -/
def lastSegment? (path : String) : Option (List String × String × Bool) :=
  let backwards := (Path.segments path).reverse
  match backwards.dropWhile (· == "") with
  | [] => none
  | last :: before => some (before.reverse, last, backwards.head? == some "")

/-- The names of a directory that some segments of a path lead to. -/
def directoryAt (fs : FileSystem) (path : String) (segments : List String) :
    Except Fault (List String) :=
  (fs.follow path segments).bind fun names =>
    match fs.root.at? names with
    | none => .error .notFound
    | some (.file _ _) => .error .notDirectory
    | some (.directory _ _) => .ok names

def put (fs : FileSystem) (names : List String) (e : Entry) : FileSystem :=
  { fs with root := fs.root.alter (fun _ => some e) names }

/-- With a file at a path. There may be a file before, but no directory. -/
def write (fs : FileSystem) (path : String) (content : ByteArray) : Except Fault FileSystem :=
  match refused? path, lastSegment? path with
  | some f, _ => .error f
  | none, none => .error .isDirectory
  | none, some (before, name, withSlash) =>
    (fs.directoryAt path before).bind fun above =>
      if name == "." || name == ".." || withSlash then .error .isDirectory
      else if nameLimit < name.utf8ByteSize then .error .nameTooLong
      else
        match fs.root.at? (above ++ [name]) with
        | some (.directory _ _) => .error .isDirectory
        | _ => .ok (fs.put (above ++ [name]) (.file name content))

/-- With an empty directory at a path, where nothing may be before. -/
def makeDirectory (fs : FileSystem) (path : String) : Except Fault FileSystem :=
  match refused? path, lastSegment? path with
  | some f, _ => .error f
  | none, none => .error .alreadyThere
  | none, some (before, name, _) =>
    (fs.directoryAt path before).bind fun above =>
      if name == "." || name == ".." then .error .alreadyThere
      else if nameLimit < name.utf8ByteSize then .error .nameTooLong
      else if (fs.root.at? (above ++ [name])).isSome then .error .alreadyThere
      else .ok (fs.put (above ++ [name]) (.directory name []))

/-- A path and the paths above it, up to the root or to where relative paths start. -/
def ancestors (path : String) : List String :=
  let steps := Path.components path
  let above := (List.range (steps.length - 1)).reverse.map fun n => steps.take (n + 1)
  if steps.isEmpty || steps == [.root] then []
  else path :: (above.filter (· != [.root])).map Path.ofComponents

/-- What comes of an attempt to make a directory: one that is there already is as good. -/
def orExisting (fs : FileSystem) (path : String) (attempt : Except Fault FileSystem) :
    FileSystem × Option Fault :=
  match attempt with
  | .ok fs => (fs, none)
  | .error .alreadyThere => (fs, if fs.isDirectory path then none else some .alreadyThere)
  | .error f => (fs, some f)

/-- Makes the first of some directories, each in the next, and those of the others that are missing.
What has been made stays if something fails. -/
def makeChain (fs : FileSystem) : List String → FileSystem × Option Fault
  | [] => (fs, none)
  | path :: above =>
    match fs.makeDirectory path with
    | .error .notFound =>
      match fs.makeChain above with
      | (fs, none) => fs.orExisting path (fs.makeDirectory path)
      | failed => failed
    | attempt => fs.orExisting path attempt

def makeDirectories (fs : FileSystem) (path : String) : FileSystem × Option Fault :=
  fs.makeChain (ancestors path)

def remove (fs : FileSystem) (path : String) : Except Fault FileSystem :=
  (fs.locate path).map fun names => { fs with root := fs.root.alter (fun _ => none) names }

end CodeSmell.FileSystem
