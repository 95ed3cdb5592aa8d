import CodeSmell.CommandLine.Outcome
import CodeSmell.Proofs.Loader

/-!
# Scans and the single checks

A scan loads the sources once for all its checks, and cuts what each of them finds to a limit.

* `Scan.Selects` : a check is asked for, or nothing is and the settings have it on;
* `Scan.Shows` : what a scan shows of the findings of a check (`shows_report`);
* `Scan.Agrees` : what a scan shows of each check is what that check finds by itself at the path, with
  the loader, the threshold and the options of the scan (`agrees_resultOf`);
* `ScanResult.StartOf` : a result has the first findings of another, check by check;
* `exitCode_eq_of_limit` : a limit has no say in the exit code, unless it is zero;
* `scan_agrees_with_checks` : these together.
-/

namespace CodeSmell

namespace Scan

/-! ## What a scan shows of one check -/

/-- A check is asked for, or nothing is and the settings have it on. -/
def Selects (s : Scan) (c : Check) : Prop :=
  c ∈ s.checks ∨ s.checks = [] ∧ settingsEnable s.settings c = true

theorem isEnabled_iff {s : Scan} {c : Check} : s.isEnabled c = true ↔ s.Selects c := by
  unfold isEnabled Selects
  by_cases h : s.checks = []
  · simp [h]
  · simp [h]

/-- A scan shows the findings of a check that it selects up to its limit, and none of another. -/
structure Shows {α : Type} (s : Scan) (c : Check) (found shown : List α) : Prop where
  limited : s.Selects c → ∀ limit, s.maxFindings = some limit → shown = found.take limit
  whole : s.Selects c → s.maxFindings = none → shown = found
  omitted : ¬ s.Selects c → shown = []

section Shows

variable {α : Type} {s : Scan} {c : Check} {found shown shown' : List α}

theorem shows_report (s : Scan) (c : Check) (found : List α) :
    s.Shows c found (s.report c found) where
  limited hselects limit hlimit := by
    rw [report, if_pos (isEnabled_iff.mpr hselects), hlimit]
  whole hselects hlimit := by
    rw [report, if_pos (isEnabled_iff.mpr hselects), hlimit]
  omitted hselects := by
    rw [report, if_neg (mt isEnabled_iff.mp hselects)]

/-- With a smaller limit the first of the findings are shown. -/
theorem Shows.isPrefix {limit : Nat} {other : Option Nat}
    (h : { s with maxFindings := some limit }.Shows c found shown)
    (h' : { s with maxFindings := other }.Shows c found shown')
    (hle : ∀ n ∈ other, limit ≤ n) : shown <+: shown' := by
  by_cases hselects : s.Selects c
  · have hshown : shown = found.take limit := h.limited hselects limit rfl
    cases other with
    | none =>
      have hshown' : shown' = found := h'.whole hselects rfl
      rw [hshown, hshown']
      exact List.take_prefix limit found
    | some n =>
      have hshown' : shown' = found.take n := h'.limited hselects n rfl
      have hn : limit ≤ n := hle n rfl
      rw [hshown, hshown', ← Nat.min_eq_left hn, ← List.take_take]
      exact List.take_prefix limit (found.take n)
  · rw [h.omitted hselects]
    exact List.nil_prefix

/-- Unless the limit is zero, nothing is shown only if nothing is found. -/
theorem Shows.eq_nil_iff (h : s.Shows c found shown) (hlimit : s.maxFindings ≠ some 0) :
    shown = [] ↔ (s.Selects c → found = []) := by
  by_cases hselects : s.Selects c
  · cases hmax : s.maxFindings with
    | none =>
      have hshown : shown = found := h.whole hselects hmax
      simp [hshown, hselects]
    | some n =>
      have hshown : shown = found.take n := h.limited hselects n hmax
      have hn : n ≠ 0 := by
        rintro rfl
        exact hlimit hmax
      simp [hshown, hselects, hn]
  · simp [h.omitted hselects, hselects]

end Shows

/-! ## What a scan shows of all checks -/

/-- The options for dead code, as the settings give them to a check that starts from the usual
ones. -/
def deadCodeOptions (s : Scan) : DeadCodeOptions :=
  (({} : DeadCodeOptions).withEntryPoints s.settings.deadCode.options.entryPoints).withKnownNamespaces
    s.settings.deadCode.options.knownNamespaces

def longMethodThreshold (s : Scan) : Nat :=
  s.threshold.getD s.settings.longMethods.threshold

/-- A result of a scan has, check by check, what the checks find by themselves at the path. -/
structure Agrees (s : Scan) (l : Loader) (fs : FileSystem) (path : String) (r : ScanResult) :
    Prop where
  scanned : r.scanned = (l.path fs path).length
  longMethods :
    s.Shows .longMethods (l.findLongMethods fs path s.longMethodThreshold) r.longMethods
  magicNumbers : s.Shows .magicNumbers (l.findMagicNumbers fs path) r.magicNumbers
  namingViolations : s.Shows .naming (l.findNamingViolations fs path) r.namingViolations
  deadCode : s.Shows .deadCode (l.findDeadCode s.deadCodeOptions fs path) r.deadCode

theorem deadCodeOptions_eq (s : Scan) : s.deadCodeOptions = s.settings.deadCode.options := by
  simp [deadCodeOptions, DeadCodeOptions.withEntryPoints, DeadCodeOptions.withKnownNamespaces]

theorem agrees_resultOf (s : Scan) (l : Loader) (fs : FileSystem) (path : String) :
    s.Agrees l fs path (s.resultOf (l.path fs path)) where
  scanned := rfl
  longMethods := shows_report s .longMethods _
  magicNumbers := shows_report s .magicNumbers _
  namingViolations := shows_report s .naming _
  deadCode := by
    rw [deadCodeOptions_eq]
    exact shows_report s .deadCode _

section Run

variable {s : Scan} {grammar : Grammar} {fs : FileSystem} {path : String}

theorem run_of_parseAll {globs : List Glob}
    (h : Glob.parseAll s.settings.excludedPaths = .ok globs) :
    s.run grammar fs path = .ok (s.resultOf ((⟨grammar, globs⟩ : Loader).path fs path)) := by
  rw [run, loader, h]
  rfl

theorem run_of_parseAll_error {bad : Glob.BadPattern}
    (h : Glob.parseAll s.settings.excludedPaths = .error bad) :
    s.run grammar fs path = .error bad := by
  rw [run, loader, h]
  rfl

end Run

end Scan

/-! ## Limits -/

namespace ScanResult

/-- A result has the first findings of another, check by check. -/
structure StartOf (r r' : ScanResult) : Prop where
  scanned : r.scanned = r'.scanned
  longMethods : r.longMethods <+: r'.longMethods
  magicNumbers : r.magicNumbers <+: r'.magicNumbers
  namingViolations : r.namingViolations <+: r'.namingViolations
  deadCode : r.deadCode <+: r'.deadCode

theorem isClean_iff {r : ScanResult} :
    r.isClean = true ↔ r.longMethods = [] ∧ r.magicNumbers = [] ∧ r.namingViolations = [] ∧
      r.deadCode = [] := by
  simp [isClean, total, and_assoc]

end ScanResult

namespace Scan

variable {s : Scan} {l : Loader} {fs : FileSystem} {path : String} {r r' : ScanResult}

theorem Agrees.startOf {limit : Nat} {other : Option Nat}
    (h : { s with maxFindings := some limit }.Agrees l fs path r)
    (h' : { s with maxFindings := other }.Agrees l fs path r')
    (hle : ∀ n ∈ other, limit ≤ n) : r.StartOf r' where
  scanned := h.scanned.trans h'.scanned.symm
  longMethods := h.longMethods.isPrefix h'.longMethods hle
  magicNumbers := h.magicNumbers.isPrefix h'.magicNumbers hle
  namingViolations := h.namingViolations.isPrefix h'.namingViolations hle
  deadCode := h.deadCode.isPrefix h'.deadCode hle

/-- Unless the limit is zero, a result is clean only if no check that is selected finds anything. -/
theorem Agrees.isClean_iff (h : s.Agrees l fs path r) (hlimit : s.maxFindings ≠ some 0) :
    r.isClean = true ↔
      (s.Selects .longMethods → l.findLongMethods fs path s.longMethodThreshold = []) ∧
      (s.Selects .magicNumbers → l.findMagicNumbers fs path = []) ∧
      (s.Selects .naming → l.findNamingViolations fs path = []) ∧
      (s.Selects .deadCode → l.findDeadCode s.deadCodeOptions fs path = []) := by
  rw [ScanResult.isClean_iff, h.longMethods.eq_nil_iff hlimit, h.magicNumbers.eq_nil_iff hlimit,
    h.namingViolations.eq_nil_iff hlimit, h.deadCode.eq_nil_iff hlimit]

theorem isClean_eq_of_limit (s : Scan) (l : Loader) (fs : FileSystem) (path : String) {limit : Nat}
    (hlimit : 1 ≤ limit) :
    ({ s with maxFindings := some limit }.resultOf (l.path fs path)).isClean =
      ({ s with maxFindings := none }.resultOf (l.path fs path)).isClean := by
  have hsome : some limit ≠ some 0 := by simp; omega
  have hnone : (none : Option Nat) ≠ some 0 := nofun
  rw [Bool.eq_iff_iff, (agrees_resultOf _ l fs path).isClean_iff hsome,
    (agrees_resultOf _ l fs path).isClean_iff hnone]
  rfl

end Scan

namespace CommandLine

theorem exitCode_eq_of_limit (grammar : Grammar) (color : Bool) (fs : FileSystem)
    (a : ScanArguments) {limit : Nat} (hlimit : 1 ≤ limit) :
    (scan grammar color fs { a with maxFindings := some limit }).exitCode =
      (scan grammar color fs { a with maxFindings := none }).exitCode := by
  unfold scan
  cases Format.ofLabel? a.format with
  | none => rfl
  | some format =>
    dsimp only
    cases fs.canonical a.path with
    | error f => rfl
    | ok full =>
      dsimp only
      cases settingsFor fs full a.config with
      | error f => rfl
      | ok settings =>
        dsimp only
        cases settings.fault? with
        | some f => rfl
        | none =>
          dsimp only
          -- the limit is no setting: it leaves the patterns and the sources as they are
          cases h : Glob.parseAll (a.scan settings).settings.excludedPaths with
          | error bad =>
            have hrun (other : Option Nat) :
                (({ a with maxFindings := other } : ScanArguments).scan settings).run grammar fs full =
                  .error bad := Scan.run_of_parseAll_error h
            rw [hrun, hrun]
          | ok globs =>
            have hrun (other : Option Nat) :
                (({ a with maxFindings := other } : ScanArguments).scan settings).run grammar fs full =
                  .ok ({ a.scan settings with maxFindings := other }.resultOf
                    ((⟨grammar, globs⟩ : Loader).path fs full)) := Scan.run_of_parseAll h
            have hclean := (a.scan settings).isClean_eq_of_limit ⟨grammar, globs⟩ fs full hlimit
            rw [hrun, hrun]
            exact congrArg (fun clean : Bool => if clean then exitClean else exitFindings) hclean

end CommandLine

/-- **A scan agrees with the checks that it runs, and a limit only cuts.** If its patterns can be
read, a scan has a result, with the number of sources that are loaded and, for each check that it
selects, the first findings of that check at the path, up to the limit. With a smaller limit the
result has the first of the findings that it has with a larger one, or with none, and a limit does
not change the exit code, unless it is zero. -/
theorem scan_agrees_with_checks (s : Scan) (grammar : Grammar) (fs : FileSystem) (path : String)
    {globs : List Glob} (h : Glob.parseAll s.settings.excludedPaths = .ok globs) :
    (∃ r, s.run grammar fs path = .ok r ∧ s.Agrees ⟨grammar, globs⟩ fs path r) ∧
    (∀ (limit : Nat) (other : Option Nat), (∀ n ∈ other, limit ≤ n) →
      ∃ r r', { s with maxFindings := some limit }.run grammar fs path = .ok r ∧
        { s with maxFindings := other }.run grammar fs path = .ok r' ∧ r.StartOf r') ∧
    ∀ (color : Bool) (a : CommandLine.ScanArguments) (limit : Nat), 1 ≤ limit →
      (CommandLine.scan grammar color fs { a with maxFindings := some limit }).exitCode =
        (CommandLine.scan grammar color fs { a with maxFindings := none }).exitCode := by
  refine ⟨⟨_, Scan.run_of_parseAll h, s.agrees_resultOf _ fs path⟩, ?_, ?_⟩
  · intro limit other hle
    refine ⟨_, _, Scan.run_of_parseAll h, Scan.run_of_parseAll h, ?_⟩
    exact (Scan.agrees_resultOf _ _ fs path).startOf (Scan.agrees_resultOf _ _ fs path) hle
  · intro color a limit hlimit
    exact CommandLine.exitCode_eq_of_limit grammar color fs a hlimit

/-- A scan for three magic numbers at most, and for nothing else, outside of what is called `old`. -/
def oldScan : Scan where
  settings := { excludedPaths := ["old"] }
  checks := [.magicNumbers]
  maxFindings := some 3

theorem oldScan_shows_magicNumbers :
    Glob.parseAll oldScan.settings.excludedPaths = .ok oldExcluded.excluded ∧
      ∃ r, oldScan.run oldExcluded.grammar appFiles "/app" = .ok r ∧
        r.magicNumbers = (oldExcluded.findMagicNumbers appFiles "/app").take 3 ∧
        r.deadCode = [] := by
  have hparse : Glob.parseAll oldScan.settings.excludedPaths = .ok oldExcluded.excluded := rfl
  obtain ⟨⟨r, hrun, hagrees⟩, -, -⟩ :=
    scan_agrees_with_checks oldScan oldExcluded.grammar appFiles "/app" hparse
  have hselects : oldScan.Selects .magicNumbers := .inl (by decide)
  have homits : ¬ oldScan.Selects .deadCode := by
    rintro (hasked | ⟨hnone, -⟩)
    · exact absurd hasked (by decide)
    · cases hnone
  exact ⟨hparse, r, hrun, hagrees.magicNumbers.limited hselects 3 rfl,
    hagrees.deadCode.omitted homits⟩

end CodeSmell
