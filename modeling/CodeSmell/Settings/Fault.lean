import CodeSmell.Glob.Reader
import CodeSmell.Settings.Basic
import CodeSmell.Text.Blank
import CodeSmell.Text.Quoted

/-!
# Settings that make no sense

* `Fault`, `Fault.message` : what can be wrong with settings that could be read;
* `Settings.fault?` : the first thing that is wrong.
-/

namespace CodeSmell.Settings

/-- What is wrong with settings. -/
inductive Fault where
  /-- A pattern that cannot be read. -/
  | badPattern (bad : Glob.BadPattern)
  | blankEntryPoint
  | blankNamespace
deriving DecidableEq, Repr, Inhabited

def Fault.message : Fault → String
  | badPattern bad =>
    "invalid excluded_paths pattern " ++ Text.quoted bad.pattern ++ ": " ++ bad.message
  | blankEntryPoint => "dead_code.entry_points must not contain blank names"
  | blankNamespace => "dead_code.known_namespaces must not contain a blank namespace"

/-- The first thing that is wrong: a pattern that cannot be read, a blank entry point, or a blank
namespace. -/
def fault? (s : Settings) : Option Fault :=
  match Glob.parseAll s.excludedPaths with
  | .error bad => some (.badPattern bad)
  | .ok _ =>
    if s.deadCode.options.entryPoints.any Text.isBlankText then some .blankEntryPoint
    else if s.deadCode.options.knownNamespaces.any (Text.isBlankText ·.1) then some .blankNamespace
    else none

end CodeSmell.Settings
