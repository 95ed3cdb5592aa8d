import CodeSmell.FileSystem.Basic
import CodeSmell.Glob.Reader
import CodeSmell.Source

/-!
# Loading sources

A file that is missing, or is no text, is passed over. A directory is walked in the order of the names
in it and in those below it. Files of a known language are loaded, save those in directories that hold
no sources.

* `Source.ofBytes?` : the source with some content;
* `Entry.sorted` : an entry with the directories in it in order;
* `Entry.files` : the names that lead to the files below a directory;
* `Loader.file?`, `directory`, `path` : the sources at a path.
-/

namespace CodeSmell

namespace Source

/-- A text without the byte order mark that it may begin with. -/
def withoutMark (text : String) : String :=
  match text.toList with
  | '\ufeff' :: rest => String.ofList rest
  | _ => text

def ofBytes? (grammar : Grammar) (path : String) (content : ByteArray) : Option Source :=
  (String.fromUTF8? content).map fun text => Source.read grammar path (withoutMark text)

end Source

namespace Entry

mutual

/-- An entry with the entries of each directory in it in the order of their names. -/
def sorted : Entry → Entry
  | file name content => file name content
  | directory name entries =>
    directory name ((sortedIn entries).mergeSort fun a b => a.name ≤ b.name)

def sortedIn : List Entry → List Entry
  | [] => []
  | e :: rest => e.sorted :: sortedIn rest

end

mutual

/-- The names that lead to the files in an entry, without those that are not to be kept. Of a directory
that is not to be kept nothing is. -/
def files (keep : List String → Entry → Bool) (above : List String) : Entry → List (List String)
  | file name content =>
    if keep (above ++ [name]) (file name content) then [above ++ [name]] else []
  | directory name entries =>
    if keep (above ++ [name]) (directory name entries) then filesIn keep (above ++ [name]) entries
    else []

def filesIn (keep : List String → Entry → Bool) (above : List String) :
    List Entry → List (List String)
  | [] => []
  | e :: rest => e.files keep above ++ filesIn keep above rest

end

def filesBelow (keep : List String → Entry → Bool) : Entry → List (List String)
  | file _ _ => []
  | directory _ entries => filesIn keep [] entries

end Entry

/-- How sources are loaded. -/
structure Loader where
  grammar : Grammar
  /-- The patterns of paths that are left out. -/
  excluded : List Glob := []

namespace Loader

/-- Directories of what is built or fetched. -/
def skippedNames : List String :=
  ["bin", "obj", "node_modules", "packages"]

def isSkipped (name : String) : Bool :=
  name.toList.head? == some '.' || skippedNames.contains name

/-- Whether a pattern takes a path, seen from the directory that is loaded or from the root. -/
def excludes (l : Loader) (base relative : String) : Bool :=
  l.excluded.any fun g => g.admits relative || g.admits (Path.join base relative)

def keeps (l : Loader) (base : String) (names : List String) (e : Entry) : Bool :=
  !(e.isDirectory && isSkipped e.name) && !l.excludes base ("/".intercalate names)

/-- The source in the file at a path, of any language. -/
def file? (l : Loader) (fs : FileSystem) (path : String) : Option Source :=
  match fs.read path with
  | .ok content => Source.ofBytes? l.grammar (fs.absolute path) content
  | .error _ => none

/-- The names that lead to the files to load below a directory, as a walk comes to them. -/
def filesToLoad (l : Loader) (base : String) (d : Entry) : List (List String) :=
  (d.sorted.filesBelow (l.keeps base)).filter fun names =>
    (Language.ofPath? (Path.join base ("/".intercalate names))).isSome

/-- The sources below the directory at a path. Each file that the walk comes to is read by its own
path, and is passed over if the system does not take that. -/
def directory (l : Loader) (fs : FileSystem) (path : String) : List Source :=
  match fs.entry? path with
  | some (.directory d entries) =>
    let base := fs.absolute path
    (l.filesToLoad base (.directory d entries)).filterMap fun names =>
      l.file? fs (Path.join base ("/".intercalate names))
  | _ => []

/-- The sources at a path: the one in a file, or those below a directory. -/
def path (l : Loader) (fs : FileSystem) (path : String) : List Source :=
  let single := if fs.isFile path then l.file? fs (fs.absolute path) else none
  single.toList ++ l.directory fs path

end Loader

end CodeSmell
