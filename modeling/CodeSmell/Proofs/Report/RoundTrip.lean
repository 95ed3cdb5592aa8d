import CodeSmell.CommandLine.Outcome
import CodeSmell.Proofs.Json.Written
import Mathlib.Algebra.Group.Nat.Defs

/-!
# Reading a report back

* `Counted`, for each kind of finding and for a scan : every number fits into 64 bits;
* `ofJson?_toJson`, for each kind of finding and for a report : the record of what is counted is read
  back as it was;
* `toJson_whole` : the records of the two reports have no numbers but natural ones, so that their texts
  are parsed as the records;
* `Report.scanPart?` : the record of a scan that stands in the record of a report;
* `report_reads_back` : the texts of a report are read back as the report, and as the scan.
-/

namespace CodeSmell

namespace Json

theorem natural?_of_lt {n : Nat} (h : n < 2 ^ 64) : (natural n).natural? = some n :=
  if_pos h

/-- A list is read back if each of its items is. -/
theorem listOf?_map {α : Type} {read : Json → Option α} {write : α → Json} {xs : List α}
    (h : ∀ x ∈ xs, read (write x) = some x) : listOf? read (array (xs.map write)) = some xs := by
  change (xs.map write).mapM read = some xs
  induction xs with
  | nil => rfl
  | cons x xs ih =>
    obtain ⟨hx, hxs⟩ := List.forall_mem_cons.mp h
    rw [List.map_cons, List.mapM_cons, hx, ih hxs]
    rfl

end Json

/-! ## Findings -/

namespace LongMethod

/-- The line and the count fit into 64 bits. -/
structure Counted (m : LongMethod) : Prop where
  startLine : m.startLine < 2 ^ 64
  statementCount : m.statementCount < 2 ^ 64

theorem ofJson?_toJson {m : LongMethod} (h : m.Counted) : ofJson? m.toJson = some m := by
  have hfields : m.toJson.fields? fieldNames =
      some [.string m.methodName, .string m.declaringFile, .natural m.startLine,
        .natural m.statementCount] := rfl
  rw [ofJson?, hfields]
  simp only [Json.string?, Json.natural?_of_lt h.startLine, Json.natural?_of_lt h.statementCount]
  rfl

theorem toJson_whole (m : LongMethod) : m.toJson.Whole := by
  simp [toJson]

end LongMethod

namespace MagicNumber

/-- The line fits into 64 bits. -/
def Counted (m : MagicNumber) : Prop :=
  m.line < 2 ^ 64

theorem ofJson?_toJson {m : MagicNumber} (h : m.Counted) : ofJson? m.toJson = some m := by
  have hfields : m.toJson.fields? fieldNames =
      some [.string m.value, .string m.file, .natural m.line] := rfl
  rw [ofJson?, hfields]
  simp only [Json.string?, Json.natural?_of_lt h]
  rfl

theorem toJson_whole (m : MagicNumber) : m.toJson.Whole := by
  simp [toJson]

end MagicNumber

namespace NamingViolation

def Counted (v : NamingViolation) : Prop :=
  v.line < 2 ^ 64

theorem ofJson?_toJson {v : NamingViolation} (h : v.Counted) : ofJson? v.toJson = some v := by
  have hfields : v.toJson.fields? fieldNames =
      some [.string v.identifierName, .string v.identifierType.label, .string v.file,
        .natural v.line, .string v.expected.code] := rfl
  rw [ofJson?, hfields]
  simp only [Json.string?, Json.word?, Json.natural?_of_lt h, Option.bind_some,
    IdentifierType.ofLabel?_label, Convention.ofCode?_code]
  rfl

theorem toJson_whole (v : NamingViolation) : v.toJson.Whole := by
  simp [toJson]

end NamingViolation

namespace DeadCode

def Counted (d : DeadCode) : Prop :=
  d.line < 2 ^ 64

theorem ofJson?_toJson {d : DeadCode} (h : d.Counted) : ofJson? d.toJson = some d := by
  have hfields : d.toJson.fields? fieldNames =
      some [.string d.kind.label, .string d.identifier, .string d.file, .natural d.line] := rfl
  rw [ofJson?, hfields]
  simp only [Json.string?, Json.word?, Json.natural?_of_lt h, Option.bind_some,
    DeadCodeKind.ofLabel?_label]
  rfl

theorem toJson_whole (d : DeadCode) : d.toJson.Whole := by
  simp [toJson]

end DeadCode

/-! ## Scans and reports -/

/-- All numbers in the findings of a scan fit into 64 bits, and so do the number of files and the
number of findings. -/
structure ScanResult.Counted (r : ScanResult) : Prop where
  scanned : r.scanned < 2 ^ 64
  total : r.total < 2 ^ 64
  longMethods : ∀ m ∈ r.longMethods, m.Counted
  magicNumbers : ∀ m ∈ r.magicNumbers, m.Counted
  namingViolations : ∀ v ∈ r.namingViolations, v.Counted
  deadCode : ∀ d ∈ r.deadCode, d.Counted

section Counted

variable {r : ScanResult} (h : r.Counted)
include h

theorem ScanResult.ofJson?_toJson : ofJson? r.toJson = some r := by
  have hfields : r.toJson.fields? fieldNames =
      some [.natural r.scanned, .array (r.longMethods.map LongMethod.toJson),
        .array (r.magicNumbers.map MagicNumber.toJson),
        .array (r.namingViolations.map NamingViolation.toJson),
        .array (r.deadCode.map DeadCode.toJson)] := rfl
  have hlong := Json.listOf?_map fun m hm => LongMethod.ofJson?_toJson (h.longMethods m hm)
  have hmagic := Json.listOf?_map fun m hm => MagicNumber.ofJson?_toJson (h.magicNumbers m hm)
  have hnaming :=
    Json.listOf?_map fun v hv => NamingViolation.ofJson?_toJson (h.namingViolations v hv)
  have hdead := Json.listOf?_map fun d hd => DeadCode.ofJson?_toJson (h.deadCode d hd)
  rw [ofJson?, hfields]
  simp only [Json.natural?_of_lt h.scanned, hlong, hmagic, hnaming, hdead]
  rfl

theorem Report.JsonReport.ofJson?_toJson (path : String) :
    ofJson? (ofResult path r).toJson = some (ofResult path r) := by
  have hfields : (ofResult path r).toJson.fields? fieldNames =
      some [.string Report.version, .string path, .natural r.scanned,
        .array (r.longMethods.map LongMethod.toJson),
        .array (r.magicNumbers.map MagicNumber.toJson),
        .array (r.namingViolations.map NamingViolation.toJson),
        .array (r.deadCode.map DeadCode.toJson), .natural r.total] := rfl
  have hlong := Json.listOf?_map fun m hm => LongMethod.ofJson?_toJson (h.longMethods m hm)
  have hmagic := Json.listOf?_map fun m hm => MagicNumber.ofJson?_toJson (h.magicNumbers m hm)
  have hnaming :=
    Json.listOf?_map fun v hv => NamingViolation.ofJson?_toJson (h.namingViolations v hv)
  have hdead := Json.listOf?_map fun d hd => DeadCode.ofJson?_toJson (h.deadCode d hd)
  rw [ofJson?, hfields]
  simp only [Json.string?, Json.natural?_of_lt h.scanned, Json.natural?_of_lt h.total, hlong,
    hmagic, hnaming, hdead]
  rfl

end Counted

namespace Report

theorem JsonReport.toJson_whole (r : JsonReport) : r.toJson.Whole := by
  simp [toJson, LongMethod.toJson_whole, MagicNumber.toJson_whole, NamingViolation.toJson_whole,
    DeadCode.toJson_whole]

theorem SarifReport.toJson_whole (r : SarifReport) : r.toJson.Whole := by
  have hrule (rule : SarifRule) : (ruleJson rule).Whole := by
    simp [ruleJson, textObject]
  have hresult (result : SarifResult) : (resultJson result).Whole := by
    simp [resultJson, textObject]
  simp [toJson, hrule, hresult]

/-- The record of a scan that stands in the record of a report: the four lists, with the number of
files as the number of those that were scanned. -/
def scanPart? (j : Json) : Option Json := do
  some (.object [("scanned", ← j.get? "files_scanned"), ("long_methods", ← j.get? "long_methods"),
    ("magic_numbers", ← j.get? "magic_numbers"),
    ("naming_violations", ← j.get? "naming_violations"), ("dead_code", ← j.get? "dead_code")])

theorem scanPart?_toJson (path : String) (r : ScanResult) :
    scanPart? (JsonReport.ofResult path r).toJson = some r.toJson := rfl

end Report

open Report CommandLine

/-- **Reports read back.** What is printed as the report on a scan, and the record of the report over
several lines or on one, is read as the record of a report on the same path, by the same version,
with the same numbers and the same four lists; and the scan in it is read as the scan that it was. -/
theorem report_reads_back (color : Bool) (path full : String) {r : ScanResult} (h : r.Counted)
    {text : String}
    (htext : text ∈ [Format.json.render color path full r,
      (JsonReport.ofResult path r).toJson.pretty, (JsonReport.ofResult path r).toJson.compact]) :
    ∃ j, Json.parse text = some j ∧
      JsonReport.ofJson? j = some
        { version := version, path := path, filesScanned := r.scanned, longMethods := r.longMethods
          magicNumbers := r.magicNumbers, namingViolations := r.namingViolations
          deadCode := r.deadCode, total := r.total } ∧
      (scanPart? j).bind ScanResult.ofJson? = some r := by
  have hwhole := (JsonReport.ofResult path r).toJson_whole
  have hparse : Json.parse text = some (JsonReport.ofResult path r).toJson := by
    simp only [List.mem_cons, List.not_mem_nil, or_false] at htext
    rcases htext with rfl | rfl | rfl
    · exact Json.parse_pretty_lineBreak hwhole
    · exact Json.parse_pretty hwhole
    · exact Json.parse_compact hwhole
  refine ⟨_, hparse, JsonReport.ofJson?_toJson h path, ?_⟩
  rw [scanPart?_toJson, Option.bind_some, ScanResult.ofJson?_toJson h]

/-- A scan with findings of every kind, whose names need escapes. -/
def oddScan : ScanResult where
  scanned := 2 ^ 64 - 1
  longMethods := [⟨"\"M\\", "/a b/\t.cs", 3, 50⟩]
  magicNumbers := [⟨"-0x7F", "/\x00\x1f\x7f/é.cs", 1⟩, ⟨"1e9", "", 2⟩]
  namingViolations :=
    [⟨"\n𝒳", .enumMember, "/😀.cs", 7, .upperCamel⟩, ⟨"Y", .localVariable, "Y.cs", 8, .lowerCamel⟩]
  deadCode := [⟨.unusedImport, "A.B", "C.cs", 1⟩, ⟨.unreferencedDeclaration, "@x", "C.cs", 4⟩]

theorem oddScan_reads_back :
    oddScan.Counted ∧
      ∃ j, Json.parse (Format.json.render false "\\src\"" "/src" oddScan) = some j ∧
        JsonReport.ofJson? j = some (JsonReport.ofResult "\\src\"" oddScan) ∧
        (scanPart? j).bind ScanResult.ofJson? = some oddScan := by
  have hcounted : oddScan.Counted :=
    { scanned := by decide
      total := by decide
      longMethods := List.forall_mem_singleton.mpr ⟨by decide, by decide⟩
      magicNumbers := by simp [oddScan, MagicNumber.Counted]
      namingViolations := by simp [oddScan, NamingViolation.Counted]
      deadCode := by simp [oddScan, DeadCode.Counted] }
  exact ⟨hcounted, report_reads_back false _ "/src" hcounted List.mem_cons_self⟩

end CodeSmell
