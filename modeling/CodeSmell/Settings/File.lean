import CodeSmell.FileSystem.Basic
import CodeSmell.Settings.Reader

/-!
# Configuration files

* `Settings.fileNames`, `Settings.discover?` : where a configuration is looked for;
* `Settings.load` : the settings in a file, or why there are none.
-/

namespace CodeSmell.Settings

/-- The names of configuration files, the one that counts first. -/
def fileNames : List String :=
  ["smellcheck.yaml", ".smellcheck.yaml"]

def discover? (fs : FileSystem) (directory : String) : Option String :=
  (fileNames.map (Path.join directory)).find? fs.isFile

/-- Why no settings can be had from a file. -/
inductive LoadFault where
  | unreadable (fault : FileSystem.Fault)
  /-- The bytes are no text. -/
  | notText
  /-- The text is no configuration. -/
  | malformed
deriving DecidableEq, Repr, Inhabited

def LoadFault.message : LoadFault → String
  | unreadable f => f.message
  | notText | malformed => "yaml"

def load (fs : FileSystem) (path : String) : Except LoadFault Settings :=
  match fs.read path with
  | .error f => .error (.unreadable f)
  | .ok content =>
    match String.fromUTF8? content with
    | none => .error .notText
    | some text =>
      match parse? text with
      | none => .error .malformed
      | some s => .ok s

end CodeSmell.Settings
