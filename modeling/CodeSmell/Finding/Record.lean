import CodeSmell.Finding.Basic
import CodeSmell.Json.Basic

/-!
# Findings as records

Each kind of finding is written as an object with a fixed list of fields. It is read from an object
that has them, whatever else it has, or from an array of exactly their values in order.

* `fields?` : the values of the named fields of a record;
* `toJson`, `ofJson?` : writing and reading, for each kind of finding and for a whole scan.
-/

namespace CodeSmell

namespace Json

/-- The values of the named fields. -/
def fields? (names : List String) : Json → Option (List Json)
  | object entries => names.mapM fun name => entry? name entries
  | array items => if items.length = names.length then some items else none
  | _ => none

/-- A choice is written as its word, or as an object with its word alone and nothing in it. -/
def word? : Json → Option String
  | string s => some s
  | object [(s, null)] => some s
  | _ => none

end Json

namespace LongMethod

def fieldNames : List String :=
  ["method_name", "declaring_file", "start_line", "statement_count"]

def toJson (m : LongMethod) : Json :=
  .object [("method_name", .string m.methodName), ("declaring_file", .string m.declaringFile),
    ("start_line", .natural m.startLine), ("statement_count", .natural m.statementCount)]

def ofJson? (j : Json) : Option LongMethod :=
  match j.fields? fieldNames with
  | some [name, file, line, count] => do
    some ⟨← name.string?, ← file.string?, ← line.natural?, ← count.natural?⟩
  | _ => none

end LongMethod

namespace MagicNumber

def fieldNames : List String :=
  ["value", "file", "line"]

def toJson (m : MagicNumber) : Json :=
  .object [("value", .string m.value), ("file", .string m.file), ("line", .natural m.line)]

def ofJson? (j : Json) : Option MagicNumber :=
  match j.fields? fieldNames with
  | some [value, file, line] => do
    some ⟨← value.string?, ← file.string?, ← line.natural?⟩
  | _ => none

end MagicNumber

namespace NamingViolation

def fieldNames : List String :=
  ["identifier_name", "identifier_type", "file", "line", "expected_convention"]

def toJson (v : NamingViolation) : Json :=
  .object [("identifier_name", .string v.identifierName),
    ("identifier_type", .string v.identifierType.label), ("file", .string v.file),
    ("line", .natural v.line), ("expected_convention", .string v.expected.code)]

def ofJson? (j : Json) : Option NamingViolation :=
  match j.fields? fieldNames with
  | some [name, type, file, line, expected] => do
    some
      { identifierName := ← name.string?
        identifierType := ← type.word?.bind IdentifierType.ofLabel?
        file := ← file.string?
        line := ← line.natural?
        expected := ← expected.word?.bind Convention.ofCode? }
  | _ => none

end NamingViolation

namespace DeadCode

def fieldNames : List String :=
  ["kind", "identifier", "file", "line"]

def toJson (d : DeadCode) : Json :=
  .object [("kind", .string d.kind.label), ("identifier", .string d.identifier),
    ("file", .string d.file), ("line", .natural d.line)]

def ofJson? (j : Json) : Option DeadCode :=
  match j.fields? fieldNames with
  | some [kind, identifier, file, line] => do
    some ⟨← kind.word?.bind DeadCodeKind.ofLabel?, ← identifier.string?, ← file.string?,
      ← line.natural?⟩
  | _ => none

end DeadCode

namespace ScanResult

def fieldNames : List String :=
  ["scanned", "long_methods", "magic_numbers", "naming_violations", "dead_code"]

def toJson (r : ScanResult) : Json :=
  .object [("scanned", .natural r.scanned),
    ("long_methods", .array (r.longMethods.map LongMethod.toJson)),
    ("magic_numbers", .array (r.magicNumbers.map MagicNumber.toJson)),
    ("naming_violations", .array (r.namingViolations.map NamingViolation.toJson)),
    ("dead_code", .array (r.deadCode.map DeadCode.toJson))]

def ofJson? (j : Json) : Option ScanResult :=
  match j.fields? fieldNames with
  | some [scanned, long, magic, naming, dead] => do
    some
      { scanned := ← scanned.natural?
        longMethods := ← long.listOf? LongMethod.ofJson?
        magicNumbers := ← magic.listOf? MagicNumber.ofJson?
        namingViolations := ← naming.listOf? NamingViolation.ofJson?
        deadCode := ← dead.listOf? DeadCode.ofJson? }
  | _ => none

end ScanResult

end CodeSmell
