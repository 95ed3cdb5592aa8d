import CodeSmell.Finding.Record

/-!
# The report as a record

The findings of a scan as an object of four lists, with the path that was scanned, the number of
files and the number of findings.

* `version` : the version of the tool;
* `JsonReport` : the report, with `ofResult`, `toJson` and `ofJson?`.
-/

namespace CodeSmell.Report

def version : String := "0.1.0"

/-- The report of a scan. -/
structure JsonReport where
  version : String
  path : String
  filesScanned : Nat
  longMethods : List LongMethod
  magicNumbers : List MagicNumber
  namingViolations : List NamingViolation
  deadCode : List DeadCode
  total : Nat
deriving DecidableEq, Repr, Inhabited

namespace JsonReport

def ofResult (path : String) (r : ScanResult) : JsonReport where
  version := Report.version
  path := path
  filesScanned := r.scanned
  longMethods := r.longMethods
  magicNumbers := r.magicNumbers
  namingViolations := r.namingViolations
  deadCode := r.deadCode
  total := r.total

def fieldNames : List String :=
  ["version", "path", "files_scanned", "long_methods", "magic_numbers", "naming_violations",
    "dead_code", "total"]

def toJson (r : JsonReport) : Json :=
  .object [("version", .string r.version), ("path", .string r.path),
    ("files_scanned", .natural r.filesScanned),
    ("long_methods", .array (r.longMethods.map LongMethod.toJson)),
    ("magic_numbers", .array (r.magicNumbers.map MagicNumber.toJson)),
    ("naming_violations", .array (r.namingViolations.map NamingViolation.toJson)),
    ("dead_code", .array (r.deadCode.map DeadCode.toJson)), ("total", .natural r.total)]

def ofJson? (j : Json) : Option JsonReport :=
  match j.fields? fieldNames with
  | some [version, path, scanned, long, magic, naming, dead, total] => do
    some
      { version := ← version.string?
        path := ← path.string?
        filesScanned := ← scanned.natural?
        longMethods := ← long.listOf? LongMethod.ofJson?
        magicNumbers := ← magic.listOf? MagicNumber.ofJson?
        namingViolations := ← naming.listOf? NamingViolation.ofJson?
        deadCode := ← dead.listOf? DeadCode.ofJson?
        total := ← total.natural? }
  | _ => none

end JsonReport

end CodeSmell.Report
