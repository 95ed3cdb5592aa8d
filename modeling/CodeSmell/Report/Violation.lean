import CodeSmell.Finding.Basic
import CodeSmell.Text.Quoted

/-!
# Findings in one list

For display, the findings of all checks are put in one list, each under the rule that it breaks and
with a sentence that says what is wrong.

* `Severity`, `Rule`, `Violation` : how grave it is, which rule is broken, and the whole of it;
* `ScanResult.violations` : the findings of a scan, check by check.
-/

namespace CodeSmell

/-- How grave a finding is. -/
inductive Severity where
  | warning
  | info
deriving DecidableEq, Repr, Inhabited

def Severity.label : Severity → String
  | warning => "warning"
  | info => "info"

/-- The rules that code can break. -/
inductive Rule where
  | longMethod
  | magicNumber
  | namingConvention
  | unusedImport
  | unreferencedDeclaration
deriving DecidableEq, Repr, Inhabited

def Rule.id : Rule → String
  | longMethod => "long_method"
  | magicNumber => "magic_number"
  | namingConvention => "naming_convention"
  | unusedImport => "unused_import"
  | unreferencedDeclaration => "unreferenced_declaration"

def DeadCodeKind.rule : DeadCodeKind → Rule
  | unusedImport => .unusedImport
  | unreferencedDeclaration => .unreferencedDeclaration

/-- A finding for display. -/
structure Violation where
  rule : Rule
  message : String
  file : String
  line : Nat
  severity : Severity
deriving DecidableEq, Repr, Inhabited

open Text (quoted)

namespace LongMethod

def violation (m : LongMethod) : Violation where
  rule := .longMethod
  message :=
    "method " ++ quoted m.methodName ++ " has " ++ toString m.statementCount ++ " statements"
  file := m.declaringFile
  line := m.startLine
  severity := .warning

end LongMethod

namespace MagicNumber

def violation (m : MagicNumber) : Violation where
  rule := .magicNumber
  message := "magic number " ++ m.value ++ "; consider a named constant"
  file := m.file
  line := m.line
  severity := .info

end MagicNumber

namespace NamingViolation

def violation (v : NamingViolation) : Violation where
  rule := .namingConvention
  message :=
    v.identifierType.label ++ " " ++ quoted v.identifierName ++ " should be " ++ v.expected.label
  file := v.file
  line := v.line
  severity := .warning

end NamingViolation

namespace DeadCode

def message (d : DeadCode) : String :=
  match d.kind with
  | .unusedImport => "using directive " ++ quoted d.identifier ++ " is never used"
  | .unreferencedDeclaration => quoted d.identifier ++ " is declared but never referenced"

def violation (d : DeadCode) : Violation where
  rule := d.kind.rule
  message := d.message
  file := d.file
  line := d.line
  severity := .warning

end DeadCode

namespace ScanResult

/-- The findings of a scan, check by check. -/
def violations (r : ScanResult) : List Violation :=
  r.longMethods.map LongMethod.violation ++ r.magicNumbers.map MagicNumber.violation ++
    r.namingViolations.map NamingViolation.violation ++ r.deadCode.map DeadCode.violation

theorem length_violations (r : ScanResult) : r.violations.length = r.total := by
  simp [violations, total, Nat.add_assoc]

end ScanResult

end CodeSmell
