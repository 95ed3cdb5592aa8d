import CodeSmell.Report.Sarif
import Mathlib.Data.List.Forall2

/-!
# What a report promises

* `mem_idSet`, `idSet_pairwise` : a set of identifiers has the members of the list it is made from, in
  their order;
* `ScanResult.name_info_ne`, `ofSeverity_eq_level` : the rule of a finding has a description of its own,
  with the grade that the finding has;
* `SarifResult.Says` : what a result says; `TellsLongMethod`, `TellsMagicNumber`, `TellsNaming`,
  `TellsDeadCode` : what it says of each kind of finding;
* `sarif_report_consistent` : the results tell of the findings one by one, and the rules are those that
  the results name, each once.
-/

namespace CodeSmell

open Report

/-! ## Sets of identifiers -/

namespace Report

theorem mem_insertId {id other : String} {ids : List String} :
    other ∈ insertId id ids ↔ other = id ∨ other ∈ ids := by
  fun_induction insertId with
  | case1 => simp
  | case2 first rest hlt => simp
  | case3 rest hlt => simp
  | case4 first rest hlt hne ih => simp only [List.mem_cons, ih, or_left_comm]

theorem insertId_pairwise {id : String} {ids : List String} (h : ids.Pairwise (· < ·)) :
    (insertId id ids).Pairwise (· < ·) := by
  fun_induction insertId with
  | case1 => exact List.pairwise_singleton _ _
  | case2 first rest hlt =>
    refine List.pairwise_cons.mpr ⟨List.forall_mem_cons.mpr ⟨hlt, fun other hother => ?_⟩, h⟩
    exact String.lt_trans hlt ((List.pairwise_cons.mp h).1 other hother)
  | case3 rest hlt => exact h
  | case4 first rest hlt hne ih =>
    obtain ⟨hfirst, hrest⟩ := List.pairwise_cons.mp h
    refine List.pairwise_cons.mpr ⟨fun other hother => ?_, ih hrest⟩
    rcases mem_insertId.mp hother with rfl | hother
    · exact String.not_le.mp fun hle => hne (String.le_antisymm hle (String.not_lt.mp hlt))
    · exact hfirst other hother

theorem mem_idSet {id : String} {ids : List String} : id ∈ idSet ids ↔ id ∈ ids := by
  unfold idSet
  induction ids with
  | nil => rfl
  | cons first rest ih => rw [List.foldr_cons, mem_insertId, ih, List.mem_cons]

theorem idSet_pairwise (ids : List String) : (idSet ids).Pairwise (· < ·) := by
  unfold idSet
  induction ids with
  | nil => exact .nil
  | cons first rest ih => exact insertId_pairwise ih

end Report

/-! ## Rules -/

/-- No rule of a finding is described as unknown. -/
theorem Rule.name_info_ne (rule : Rule) : (info rule.id).name ≠ "Unknown" := by
  cases rule <;> decide

/-- The findings under a rule have the grade that the rule is described with. -/
theorem ScanResult.ofSeverity_eq_level {r : ScanResult} {v : Violation} (h : v ∈ r.violations) :
    Level.ofSeverity v.severity = (info v.rule.id).level := by
  simp only [violations, List.mem_append, List.mem_map] at h
  rcases h with ((⟨m, -, rfl⟩ | ⟨m, -, rfl⟩) | ⟨n, -, rfl⟩) | ⟨d, -, rfl⟩
  · rfl
  · rfl
  · rfl
  · obtain ⟨kind, identifier, file, line⟩ := d
    cases kind <;> rfl

/-! ## Results -/

namespace Report

/-- What a result says, in a report with files seen from a base: which rule is broken, how grave that
is, what is wrong, and where. -/
structure SarifResult.Says (base ruleId : String) (level : Level) (message file : String) (line : Nat)
    (s : SarifResult) : Prop where
  ruleId : s.ruleId = ruleId
  level : s.level = level
  message : s.message = message
  uri : s.uri = relativeUri base file
  startLine_pos : 1 ≤ s.startLine
  startLine : 0 < line → s.startLine = line

open Text (quoted)

namespace SarifResult

variable (base : String)

/-- What a result says of a finding for display. -/
def Tells (v : Violation) : SarifResult → Prop :=
  Says base v.rule.id (.ofSeverity v.severity) v.message v.file v.line

def TellsLongMethod (m : LongMethod) : SarifResult → Prop :=
  Says base "long_method" .warning
    ("method " ++ quoted m.methodName ++ " has " ++ toString m.statementCount ++ " statements")
    m.declaringFile m.startLine

def TellsMagicNumber (m : MagicNumber) : SarifResult → Prop :=
  Says base "magic_number" .note ("magic number " ++ m.value ++ "; consider a named constant")
    m.file m.line

def TellsNaming (v : NamingViolation) : SarifResult → Prop :=
  Says base "naming_convention" .warning
    (v.identifierType.label ++ " " ++ quoted v.identifierName ++ " should be " ++ v.expected.label)
    v.file v.line

def TellsDeadCode (d : DeadCode) : SarifResult → Prop :=
  match d.kind with
  | .unusedImport =>
    Says base "unused_import" .warning
      ("using directive " ++ quoted d.identifier ++ " is never used") d.file d.line
  | .unreferencedDeclaration =>
    Says base "unreferenced_declaration" .warning
      (quoted d.identifier ++ " is declared but never referenced") d.file d.line

theorem tells_ofViolation (v : Violation) : Tells base v (.ofViolation base v) := by
  refine ⟨rfl, rfl, rfl, rfl, ?_, fun hline => if_pos hline⟩
  show 1 ≤ if 0 < v.line then v.line else 1
  split <;> omega

theorem tellsDeadCode (d : DeadCode) : TellsDeadCode base d (.ofViolation base d.violation) := by
  have htells := tells_ofViolation base d.violation
  obtain ⟨kind, identifier, file, line⟩ := d
  cases kind <;> exact htells

end SarifResult

theorem forall₂_results {α : Type} {violation : α → Violation} {tells : α → SarifResult → Prop}
    (base : String) (h : ∀ a, tells a (.ofViolation base (violation a))) (found : List α) :
    List.Forall₂ tells found ((found.map violation).map (.ofViolation base)) := by
  rw [List.map_map, List.forall₂_map_right_iff, List.forall₂_same]
  exact fun a _ => h a

variable {base : String} {r : ScanResult}

theorem mem_rules_iff {rule : SarifRule} :
    rule ∈ (SarifReport.ofResult base r).rules ↔ ∃ v ∈ r.violations, SarifRule.ofId v.rule.id = rule := by
  simp only [SarifReport.ofResult, List.mem_map, mem_idSet, exists_exists_and_eq_and]

theorem mem_results_iff {s : SarifResult} :
    s ∈ (SarifReport.ofResult base r).results ↔
      ∃ v ∈ r.violations, SarifResult.ofViolation base v = s := by
  simp only [SarifReport.ofResult, List.mem_map]

theorem rules_pairwise (base : String) (r : ScanResult) :
    (SarifReport.ofResult base r).rules.Pairwise (·.id < ·.id) := by
  rw [SarifReport.ofResult, List.pairwise_map]
  exact idSet_pairwise _

end Report

/-- **The report for code scanning tools is consistent.** It has one result for each finding, in the
order of the checks, which tells of this finding: of its rule, of what is wrong, of its file and of its
line. Its rules come in the order of their identifiers, each once, and are those that the results name;
each of them has a description of its own, and each result has the grade of its rule. The record of the
same scan has the same number of findings, in its total and in its lists. -/
theorem sarif_report_consistent (base path : String) (r : ScanResult) :
    ((SarifReport.ofResult base r).results.length = r.total ∧
      r.violations = r.longMethods.map LongMethod.violation ++
        r.magicNumbers.map MagicNumber.violation ++
        r.namingViolations.map NamingViolation.violation ++ r.deadCode.map DeadCode.violation ∧
      List.Forall₂ (SarifResult.Tells base) r.violations (SarifReport.ofResult base r).results ∧
      ∃ long magic naming dead, (SarifReport.ofResult base r).results = long ++ magic ++ naming ++ dead ∧
        List.Forall₂ (SarifResult.TellsLongMethod base) r.longMethods long ∧
        List.Forall₂ (SarifResult.TellsMagicNumber base) r.magicNumbers magic ∧
        List.Forall₂ (SarifResult.TellsNaming base) r.namingViolations naming ∧
        List.Forall₂ (SarifResult.TellsDeadCode base) r.deadCode dead) ∧
    ((SarifReport.ofResult base r).rules.Pairwise (·.id < ·.id) ∧
      (∀ id, id ∈ (SarifReport.ofResult base r).rules.map (·.id) ↔
        id ∈ (SarifReport.ofResult base r).results.map (·.ruleId)) ∧
      (∀ s ∈ (SarifReport.ofResult base r).results, ∀ rule ∈ (SarifReport.ofResult base r).rules,
        rule.id = s.ruleId → s.level = rule.level) ∧
      ∀ rule ∈ (SarifReport.ofResult base r).rules,
        rule.toRuleInfo = info rule.id ∧ rule.name ≠ "Unknown") ∧
    (r.total = (JsonReport.ofResult path r).total ∧
      (JsonReport.ofResult path r).total =
        (JsonReport.ofResult path r).longMethods.length +
        (JsonReport.ofResult path r).magicNumbers.length +
        (JsonReport.ofResult path r).namingViolations.length +
        (JsonReport.ofResult path r).deadCode.length) := by
  have hlong : List.Forall₂ (SarifResult.TellsLongMethod base) r.longMethods _ :=
    forall₂_results base (fun m => SarifResult.tells_ofViolation base (LongMethod.violation m)) _
  have hmagic : List.Forall₂ (SarifResult.TellsMagicNumber base) r.magicNumbers _ :=
    forall₂_results base (fun m => SarifResult.tells_ofViolation base (MagicNumber.violation m)) _
  have hnaming : List.Forall₂ (SarifResult.TellsNaming base) r.namingViolations _ :=
    forall₂_results base (fun v => SarifResult.tells_ofViolation base (NamingViolation.violation v)) _
  have hdead := forall₂_results base (SarifResult.tellsDeadCode base) r.deadCode
  have hall := forall₂_results base (SarifResult.tells_ofViolation base) r.violations
  rw [List.map_id'] at hall
  refine ⟨⟨?_, rfl, hall, _, _, _, _, ?_, hlong, hmagic, hnaming, hdead⟩,
    ⟨rules_pairwise base r, fun id => ?_, fun s hs rule hrule hid => ?_, fun rule hrule => ?_⟩, rfl, rfl⟩
  · rw [SarifReport.ofResult, List.length_map, r.length_violations]
  · simp only [SarifReport.ofResult, ScanResult.violations, List.map_append]
  · simp only [List.mem_map, mem_rules_iff, mem_results_iff, exists_exists_and_eq_and]
    rfl
  · obtain ⟨v, hv, rfl⟩ := mem_results_iff.mp hs
    obtain ⟨w, -, rfl⟩ := mem_rules_iff.mp hrule
    have hlevel := ScanResult.ofSeverity_eq_level hv
    rw [show v.rule.id = w.rule.id from hid.symm] at hlevel
    exact hlevel
  · obtain ⟨v, -, rfl⟩ := mem_rules_iff.mp hrule
    exact ⟨rfl, v.rule.name_info_ne⟩

end CodeSmell
