import CodeSmell.CommandLine.Outcome
import CodeSmell.Json.Reader
import CodeSmell.Syntax.Record

/-!
# The program

The part that touches the world: it takes a picture of the files that a command may look at, runs
the command on the picture, and writes what comes of it. Syntax trees are read from standard input,
one object with a `text` and its `tree` to each line; a text without a tree is not recognizable.
-/

namespace CodeSmell.Program
open CommandLine

def usage : String :=
  "Usage: smellcheck [-v] scan PATH [-c CONFIG] [--check CHECK] [-t THRESHOLD] [-f FORMAT]\n" ++
    "                             [--max-findings COUNT]\n" ++
    "       smellcheck [-v] init [-o OUTPUT]"

/-- The text and the tree that a line writes. -/
def readLine? (line : String) : Option (String × Syntax.Tree) := do
  let j ← Json.parse line
  let text ← (j.get? "text").bind Json.string?
  let tree ← (j.get? "tree").bind (Syntax.Tree.ofJson? text)
  some (text, tree)

def grammarOf (lines : List String) : Grammar :=
  let trees := lines.filterMap readLine?
  fun text => (trees.lookup text).getD .unrecognizable

def withDirectory (fs : FileSystem) (path : String) : FileSystem :=
  (fs.makeDirectories path).1

def withFile (fs : FileSystem) (path : String) (content : ByteArray) : FileSystem :=
  ((withDirectory fs ((Path.parent? path).getD "/")).write path content).toOption.getD fs

/-- The names of the entries of a directory, or nothing if there is no such directory. -/
def namesIn? (path : String) : IO (Option (List String)) := do
  try
    let full ← IO.FS.realPath path
    return some ((← full.readDir).toList.map (·.fileName))
  catch _ => return none

def full? (path : String) : IO (Option String) := do
  try
    let full ← IO.FS.realPath path
    return some (toString full)
  catch _ => return none

/-- A picture with a file more, if it can be read. -/
def addFile (fs : FileSystem) (path : String) : IO FileSystem := do
  try
    let content ← IO.FS.readBinFile path
    return withFile fs path content
  catch _ => return fs

/-- A picture with all that stands at an absolute path. -/
partial def addAll (fs : FileSystem) (path : String) : IO FileSystem := do
  match ← namesIn? path with
  | none => addFile fs path
  | some names =>
    let mut fs := withDirectory fs path
    for name in names do
      fs ← addAll fs (Path.join path name)
    return fs

/-- A picture with a directory and the configuration in it. -/
def addDirectory (fs : FileSystem) (path : String) : IO FileSystem := do
  match ← full? path with
  | none => return fs
  | some full =>
    if (← namesIn? full).isNone then return fs
    let mut fs := withDirectory fs full
    for name in Settings.fileNames do
      fs ← addFile fs (Path.join full name)
    return fs

/-- The directories that a path leads through. -/
def prefixes (path : String) : List String :=
  let segments := Path.segments path
  (List.range segments.length).map fun n => "/".intercalate (segments.take (n + 1)) ++ "/"

/-- A picture with what a path leads through and what stands at it. -/
def addPath (fs : FileSystem) (path : String) : IO FileSystem := do
  let mut fs := fs
  for directory in prefixes path do
    fs ← addDirectory fs directory
  match ← full? path with
  | none => return fs
  | some full => addAll (← addDirectory fs ((Path.parent? full).getD "/")) full

/-- The paths that a command looks at. -/
def pathsOf : Command → List String
  | .scan a => a.path :: a.config.toList
  | .init path => [path]

/-- The picture of all that a command may look at. -/
def picture (c : Command) : IO FileSystem := do
  let here := toString (← IO.currentDir)
  let names := (Path.segments here).filter (· != "")
  let empty : FileSystem := { root := .directory "" [] }
  let mut fs ← addDirectory { withDirectory empty here with working := names } "."
  for path in pathsOf c do
    fs ← addPath fs path
  return fs

/-- Does to the files what a command has done to the picture. -/
def carryOut (c : Command) (o : Outcome) : IO Unit := do
  match c with
  | .scan _ => return
  | .init path =>
    if o.exitCode == exitClean then
      let parent := (Path.parent? path).getD ""
      unless parent.isEmpty do IO.FS.createDirAll parent
      IO.FS.writeFile path Settings.template

/-- The lines of standard input. -/
partial def inputLines (input : IO.FS.Stream) : IO (List String) := do
  let line ← input.getLine
  if line.isEmpty then return []
  return line :: (← inputLines input)

def grammarFor (c : Command) : IO Grammar := do
  match c with
  | .scan _ => return grammarOf (← inputLines (← IO.getStdin))
  | .init _ => return grammarOf []

def perform (i : Invocation) : IO UInt32 := do
  let output ← IO.getStdout
  let o := i.run (← grammarFor i.command) (← output.isTty) (← picture i.command)
  carryOut i.command o
  for message in o.messages do
    IO.eprintln message
  IO.print o.output
  return o.exitCode.toUInt32

def refuse (r : Refusal) : IO UInt32 := do
  match r with
  | .help => IO.println usage
  | .version => IO.println (Report.toolName ++ " " ++ Report.version)
  | _ => IO.eprintln ("error: " ++ r.label ++ "\n" ++ usage)
  return r.exitCode.toUInt32

end CodeSmell.Program

def main (args : List String) : IO UInt32 :=
  match CodeSmell.CommandLine.Invocation.parse args with
  | .ok i => CodeSmell.Program.perform i
  | .error r => CodeSmell.Program.refuse r
