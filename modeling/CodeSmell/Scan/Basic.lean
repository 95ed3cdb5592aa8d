import CodeSmell.Scan.Check
import CodeSmell.Settings.Basic

/-!
# Scans

A scan loads the sources at a path once and runs checks on them: those that are asked for, or else
those that the settings have on.

* `Scan` : what to run, and with which settings; `Scan.isEnabled` : whether a check runs;
* `Scan.resultOf` : the findings in some sources;
* `Scan.run` : the findings at a path.
-/

namespace CodeSmell

/-- What to run. -/
structure Scan where
  settings : Settings := {}
  /-- The checks that are asked for. -/
  checks : List Check := []
  /-- The threshold for long methods, if it is not that of the settings. -/
  threshold : Option Nat := none
  /-- The number of findings of a check that are reported at most. -/
  maxFindings : Option Nat := none
deriving Repr, Inhabited

namespace Scan

def settingsEnable (s : Settings) : Check → Bool
  | .longMethods => s.longMethods.enabled
  | .magicNumbers => s.magicNumbers.enabled
  | .naming => s.naming.enabled
  | .deadCode => s.deadCode.enabled

def isEnabled (s : Scan) (c : Check) : Bool :=
  if s.checks.isEmpty then settingsEnable s.settings c else s.checks.contains c

def enabled (s : Scan) : List Check :=
  Check.all.filter s.isEnabled

/-- The findings of a check that are reported: none if it does not run, and no more than the
limit. -/
def report {α : Type} (s : Scan) (c : Check) (findings : List α) : List α :=
  if s.isEnabled c then
    match s.maxFindings with
    | some limit => findings.take limit
    | none => findings
  else []

def resultOf (s : Scan) (sources : List Source) : ScanResult where
  scanned := sources.length
  longMethods := s.report .longMethods
    (sources.flatMap (·.longMethods (s.threshold.getD s.settings.longMethods.threshold)))
  magicNumbers := s.report .magicNumbers (sources.flatMap (·.magicNumbers))
  namingViolations := s.report .naming (sources.flatMap (·.namingViolations))
  deadCode := s.report .deadCode ((Project.ofSources sources).deadCode s.settings.deadCode.options)

/-- How the settings say that sources are loaded, unless one of their patterns cannot be read. -/
def loader (s : Scan) (grammar : Grammar) : Except Glob.BadPattern Loader :=
  (Glob.parseAll s.settings.excludedPaths).map fun globs => ⟨grammar, globs⟩

def run (s : Scan) (grammar : Grammar) (fs : FileSystem) (path : String) :
    Except Glob.BadPattern ScanResult :=
  (s.loader grammar).map fun l => s.resultOf (l.path fs path)

end Scan

end CodeSmell
