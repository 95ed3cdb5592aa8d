import CodeSmell.Json.Basic
import CodeSmell.Path
import CodeSmell.Report.Record
import CodeSmell.Report.Violation

/-!
# The report for code scanning tools

* `RuleInfo`, `info` : how a rule is described;
* `idSet` : identifiers in order, each once;
* `relativeUri` : how a file is named, seen from the scanned path;
* `SarifReport` : the rules that are broken, by identifier, and one result for each finding;
* `toJson` : the report in the format of the Static Analysis Results Interchange Format, 2.1.0.
-/

namespace CodeSmell.Report

def toolName : String := "smellcheck"

/-- The grade of a result. -/
inductive Level where
  | warning
  | note
deriving DecidableEq, Repr, Inhabited

def Level.label : Level → String
  | warning => "warning"
  | note => "note"

def Level.ofSeverity : Severity → Level
  | .warning => warning
  | .info => note

/-- How a rule is described. -/
structure RuleInfo where
  name : String
  short : String
  full : String
  level : Level
deriving DecidableEq, Repr, Inhabited

/-- The description under an identifier. What is no rule's identifier has one as well, the last. -/
def info : String → RuleInfo
  | "long_method" =>
    { name := "LongMethod"
      short := "Detects methods with too many statements"
      full := "Counts the statements directly inside each method body and reports methods at or " ++
        "above the configured threshold."
      level := .warning }
  | "magic_number" =>
    { name := "MagicNumber"
      short := "Detects numeric literals that should be named constants"
      full := "Reports every numeric literal other than -1, 0, 1 and 2, with its exact source text."
      level := .note }
  | "naming_convention" =>
    { name := "NamingConvention"
      short := "Detects identifiers that break the casing rule for their kind"
      full := "Types, methods, properties, events and constants must be UpperCamelCase; fields, " ++
        "parameters and locals must be lowerCamelCase."
      level := .warning }
  | "unused_import" =>
    { name := "UnusedImport"
      short := "Detects using directives nothing in scope relies on"
      full := "Reports a using directive when no identifier in its file (or, for global usings, " ++
        "in the project) is known to come from the imported namespace."
      level := .warning }
  | "unreferenced_declaration" =>
    { name := "UnreferencedDeclaration"
      short := "Detects declarations that are never referenced"
      full := "Reports types and members whose name never appears as a reference anywhere in " ++
        "the project."
      level := .warning }
  | _ =>
    { name := "Unknown"
      short := "Unknown rule type"
      full := "An unknown violation was detected."
      level := .warning }

/-- Puts an identifier where it belongs in a list in order, unless it is there. -/
def insertId (id : String) : List String → List String
  | [] => [id]
  | first :: rest =>
    if id < first then id :: first :: rest
    else if id = first then first :: rest
    else first :: insertId id rest

/-- The identifiers in a list, in order and without repetitions. -/
def idSet (ids : List String) : List String :=
  ids.foldr insertId []

/-- A file seen from a base: the base itself goes by its file name, a file below it by the path
from there, with slashes only, and any other file by its whole path. -/
def relativeUri (base file : String) : String :=
  if base.isEmpty then file
  else if Path.same file base then (Path.fileName? file).getD file
  else
    match Path.relativeTo? base file with
    | some rest => rest.map fun c => if c == '\\' then '/' else c
    | none => file

/-- One finding in a report. -/
structure SarifResult where
  ruleId : String
  level : Level
  message : String
  uri : String
  startLine : Nat
deriving DecidableEq, Repr, Inhabited

/-- The result for a finding. Lines begin at one. -/
def SarifResult.ofViolation (base : String) (v : Violation) : SarifResult where
  ruleId := v.rule.id
  level := .ofSeverity v.severity
  message := v.message
  uri := relativeUri base v.file
  startLine := if 0 < v.line then v.line else 1

/-- A rule in a report. -/
structure SarifRule extends RuleInfo where
  id : String
deriving DecidableEq, Repr, Inhabited

def SarifRule.ofId (id : String) : SarifRule where
  toRuleInfo := info id
  id := id

/-- The rules that are broken, and the findings. -/
structure SarifReport where
  rules : List SarifRule
  results : List SarifResult
deriving DecidableEq, Repr, Inhabited

namespace SarifReport

def ofResult (base : String) (r : ScanResult) : SarifReport where
  rules := (idSet (r.violations.map (·.rule.id))).map .ofId
  results := r.violations.map (.ofViolation base)

def textObject (s : String) : Json :=
  .object [("text", .string s)]

def ruleJson (rule : SarifRule) : Json :=
  .object [("id", .string rule.id), ("name", .string rule.name),
    ("shortDescription", textObject rule.short), ("fullDescription", textObject rule.full),
    ("defaultConfiguration", .object [("level", .string rule.level.label)])]

def resultJson (r : SarifResult) : Json :=
  .object [("ruleId", .string r.ruleId), ("level", .string r.level.label),
    ("message", textObject r.message),
    ("locations", .array [.object [("physicalLocation", .object
      [("artifactLocation", .object [("uri", .string r.uri)]),
        ("region", .object [("startLine", .natural r.startLine)])])]])]

def schema : String :=
  "https://raw.githubusercontent.com/oasis-tcs/sarif-spec/master/Schemata/sarif-schema-2.1.0.json"

def toJson (r : SarifReport) : Json :=
  .object [("version", .string "2.1.0"), ("$schema", .string schema),
    ("runs", .array [.object
      [("tool", .object [("driver", .object
          [("name", .string toolName), ("version", .string version),
            ("rules", .array (r.rules.map ruleJson))])]),
        ("results", .array (r.results.map resultJson))]])]

end SarifReport

end CodeSmell.Report
