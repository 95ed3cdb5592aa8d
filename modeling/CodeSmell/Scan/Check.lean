import CodeSmell.Check.DeadCode
import CodeSmell.Check.LongMethod
import CodeSmell.Check.MagicNumber
import CodeSmell.Loader

/-!
# The checks

* `Check` : the four checks, with their names;
* `findLongMethods`, `findMagicNumbers`, `findNamingViolations`, `findDeadCode` : what a check finds
  at a path.
-/

namespace CodeSmell

/-- A check. -/
inductive Check where
  | longMethods
  | magicNumbers
  | naming
  | deadCode
deriving DecidableEq, Repr, Inhabited

namespace Check

/-- All checks, in the order they are run. -/
def all : List Check :=
  [longMethods, magicNumbers, naming, deadCode]

def label : Check → String
  | longMethods => "long-methods"
  | magicNumbers => "magic-numbers"
  | naming => "naming"
  | deadCode => "dead-code"

def ofLabel? (s : String) : Option Check :=
  all.find? fun c => c.label == s

theorem mem_all (c : Check) : c ∈ all := by
  cases c <;> decide

@[simp]
theorem ofLabel?_label (c : Check) : ofLabel? c.label = some c := by
  cases c <;> decide

end Check

namespace Loader

def findLongMethods (l : Loader) (fs : FileSystem) (path : String) (threshold : Nat) :
    List LongMethod :=
  (l.path fs path).flatMap (·.longMethods threshold)

def findMagicNumbers (l : Loader) (fs : FileSystem) (path : String) : List MagicNumber :=
  (l.path fs path).flatMap (·.magicNumbers)

def findNamingViolations (l : Loader) (fs : FileSystem) (path : String) : List NamingViolation :=
  (l.path fs path).flatMap (·.namingViolations)

def findDeadCode (l : Loader) (o : DeadCodeOptions) (fs : FileSystem) (path : String) :
    List DeadCode :=
  (Project.ofSources (l.path fs path)).deadCode o

end Loader

end CodeSmell
