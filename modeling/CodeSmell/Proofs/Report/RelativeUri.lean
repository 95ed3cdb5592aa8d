import CodeSmell.Proofs.FileSystem.Below
import CodeSmell.Proofs.Naming
import CodeSmell.Proofs.Project.ReportOrder
import CodeSmell.Proofs.Scan.Agreement
import CodeSmell.Proofs.Scan.FileByFile
import CodeSmell.Report.Sarif

/-!
# Files in the report for code scanning tools

The report names a file below the scanned path by what is left of its path, in which each backslash
becomes a slash.

* `Path.IsPlainBelow` : no step from a base to a path is written with a backslash;
* `components_join_relativeUri_iff` : then, and only then, the name leads from the base to the file;
* `Scan.exists_source_of_mem_violations`, `Loader.isBelow_of_mem_path` : the findings of a scan are in the
  files that are loaded, and these are below the directory that is scanned;
* `uris_identify_files` : files without backslashes have different names if they have different
  steps, so that no two files with findings have the same.
-/

namespace CodeSmell

namespace Path

instance (base path : String) : Decidable (IsBelow base path) :=
  inferInstanceAs (Decidable (_ ∧ _))

/-- No step that leads from a base to a path is written with a backslash. -/
def IsPlainBelow (base path : String) : Prop :=
  ∀ step ∈ stepsBelow base path, '\\' ∉ step.text.toList

instance (base path : String) : Decidable (IsPlainBelow base path) :=
  inferInstanceAs (Decidable (∀ step ∈ stepsBelow base path, _))

variable {base path : String} {segs : List String}

/-! ## What is left of a path -/

theorem mem_of_mem_dropSteps {n : Nat} {segment : String} (h : segment ∈ dropSteps n segs) :
    segment ∈ segs := by
  fun_induction dropSteps with
  | case1 segs => exact h
  | case2 n => exact h
  | case3 n first rest hidle ih => exact List.mem_cons_of_mem first (ih h)
  | case4 n first rest hidle ih => exact List.mem_cons_of_mem first (ih h)

theorem mem_of_mem_dropComponents {n : Nat} {segment : String}
    (h : segment ∈ dropComponents path n) : segment ∈ segments path := by
  unfold dropComponents at h
  split at h
  · exact h
  · cases h
  · next first rest hsegments =>
    rw [hsegments]
    split at h
    · exact List.mem_cons_of_mem first (mem_of_mem_dropSteps h)
    · exact List.mem_cons_of_mem first (mem_of_mem_dropSteps h)

theorem mem_of_mem_intercalate {names : List String} {c : Char}
    (h : c ∈ ("/".intercalate names).toList) : c = '/' ∨ ∃ name ∈ names, c ∈ name.toList := by
  induction names with
  | nil => cases h
  | cons name rest ih =>
    by_cases hlast : rest = []
    · rw [hlast, String.intercalate_singleton] at h
      exact .inr ⟨name, List.mem_cons_self, h⟩
    · rw [String.intercalate_cons_of_ne_nil hlast, String.toList_append, String.toList_append,
        List.mem_append, List.mem_append] at h
      rcases h with (hname | hslash) | hrest
      · exact .inr ⟨name, List.mem_cons_self, hname⟩
      · exact .inl (List.mem_singleton.mp hslash)
      · rcases ih hrest with rfl | ⟨other, hother, hc⟩
        · exact .inl rfl
        · exact .inr ⟨other, List.mem_cons_of_mem name hother, hc⟩

/-- A character of trimmed segments is a slash or a dot, or stands in one of their steps. -/
theorem mem_of_mem_trimmed {c : Char} (h : c ∈ (trimmed segs).toList) :
    c = '/' ∨ c = '.' ∨ ∃ step ∈ segs.filterMap component?, c ∈ step.text.toList := by
  rw [trimmed_eq] at h
  rcases mem_of_mem_intercalate h with rfl | ⟨segment, hsegment, hc⟩
  · exact .inl rfl
  · right
    cases hcomponent : component? segment with
    | none =>
      left
      unfold component? at hcomponent
      split at hcomponent
      · next hidle =>
        rcases Bool.or_eq_true_iff.mp hidle with hempty | hhere
        · rw [beq_iff_eq.mp hempty] at hc
          cases hc
        · rw [beq_iff_eq.mp hhere] at hc
          exact List.mem_singleton.mp hc
      · split at hcomponent <;> cases hcomponent
    | some step =>
      right
      refine ⟨step, List.mem_filterMap.mpr ⟨segment, mem_of_mem_kept hsegment, hcomponent⟩, ?_⟩
      rwa [component?_text hcomponent]

def remainder (base path : String) : String :=
  trimmed (dropComponents path (components base).length)

theorem IsBelow.relativeTo?_eq (h : IsBelow base path) :
    relativeTo? base path = some (remainder base path) := by
  rw [relativeTo?, if_pos (List.isPrefixOf_iff_prefix.mpr h.1)]
  rfl

theorem not_isAbsolute_remainder (base path : String) : isAbsolute (remainder base path) = false :=
  not_isAbsolute_trimmed fun _ hsegment =>
    no_slash_of_mem_segments (mem_of_mem_dropComponents hsegment)

section Remainder

variable (hbase : base ≠ "") (h : IsBelow base path)
include hbase h

theorem filterMap_dropComponents_length :
    (dropComponents path (components base).length).filterMap component? = stepsBelow base path := by
  have hpath : path ≠ "" := by
    rintro rfl
    exact components_ne_nil hbase (List.prefix_nil.mp h.1)
  exact filterMap_dropComponents hpath (List.length_pos_of_ne_nil (components_ne_nil hbase))

theorem filterMap_segments_remainder :
    (segments (remainder base path)).filterMap component? = stepsBelow base path := by
  rw [remainder, filterMap_segments_trimmed fun _ hsegment =>
    no_slash_of_mem_segments (mem_of_mem_dropComponents hsegment)]
  exact filterMap_dropComponents_length hbase h

/-- What is left of a path leads from the base to it. -/
theorem components_join_remainder : components (join base (remainder base path)) = components path := by
  rw [components_join hbase (not_isAbsolute_remainder base path),
    filterMap_segments_remainder hbase h, ← h.components_eq]

theorem not_mem_remainder (hplain : IsPlainBelow base path) : '\\' ∉ (remainder base path).toList := by
  intro hmem
  rcases mem_of_mem_trimmed hmem with hslash | hdot | ⟨step, hstep, hc⟩
  · revert hslash
    decide
  · revert hdot
    decide
  · rw [filterMap_dropComponents_length hbase h] at hstep
    exact hplain step hstep hc

end Remainder

end Path

namespace Report

open CodeSmell.Path (IsBelow IsPlainBelow remainder components join)

/-! ## The name of a file -/

def slashed (s : String) : String :=
  s.map fun c => if c == '\\' then '/' else c

theorem slashed_eq_ofList (s : String) :
    slashed s = String.ofList (s.toList.map fun c => if c == '\\' then '/' else c) := by
  refine String.toList_injective ?_
  rw [slashed, String.toList_map, String.toList_ofList]

theorem slashed_eq_self {s : String} (h : '\\' ∉ s.toList) : slashed s = s := by
  have hkept : ∀ c ∈ s.toList, (if c == '\\' then '/' else c) = c := by
    intro c hc
    refine if_neg fun hbackslash => h ?_
    rwa [beq_iff_eq.mp hbackslash] at hc
  rw [slashed_eq_ofList, List.map_congr_left hkept, List.map_id', String.ofList_toList]

theorem not_mem_slashed (s : String) : '\\' ∉ (slashed s).toList := by
  rw [slashed_eq_ofList, String.toList_ofList]
  intro hmem
  obtain ⟨c, -, hc⟩ := List.mem_map.mp hmem
  split at hc
  · cases hc
  · next hne => exact hne (beq_iff_eq.mpr hc)

variable {base file other : String}

theorem relativeUri_eq (hbase : base ≠ "") (h : IsBelow base file) :
    relativeUri base file = slashed (remainder base file) := by
  have hnonempty : base.isEmpty = false := by simpa using hbase
  have hsame : Path.same file base = false := beq_eq_false_iff_ne.mpr h.2
  rw [relativeUri, hnonempty, hsame, h.relativeTo?_eq]
  rfl

theorem relativeUri_eq_remainder (hbase : base ≠ "") (h : IsBelow base file)
    (hplain : IsPlainBelow base file) : relativeUri base file = remainder base file := by
  rw [relativeUri_eq hbase h, slashed_eq_self (Path.not_mem_remainder hbase h hplain)]

/-- The name of a file leads from the base to the file if there is no backslash on the way, and only
then. -/
theorem components_join_relativeUri_iff (hbase : base ≠ "") (h : IsBelow base file) :
    components (join base (relativeUri base file)) = components file ↔ IsPlainBelow base file := by
  constructor
  · intro hjoin step hstep hbackslash
    have huri : '\\' ∉ (relativeUri base file).toList := by
      rw [relativeUri_eq hbase h]
      exact not_mem_slashed _
    cases habsolute : Path.isAbsolute (relativeUri base file) with
    | true =>
      -- the name is a path from the root, and no step of it has a backslash
      rw [join, habsolute, Bool.true_or, if_pos rfl] at hjoin
      have hmem : step ∈ components (relativeUri base file) := by
        rw [hjoin]
        exact List.mem_of_mem_drop hstep
      exact huri (Path.mem_of_mem_components hmem hbackslash)
    | false =>
      rw [Path.components_join hbase habsolute, h.components_eq] at hjoin
      rw [← List.append_cancel_left hjoin] at hstep
      obtain ⟨segment, hsegment, hcomponent⟩ := List.mem_filterMap.mp hstep
      rw [Path.component?_text hcomponent] at hbackslash
      exact huri (Path.mem_of_mem_segments hsegment hbackslash)
  · intro hplain
    rw [relativeUri_eq_remainder hbase h hplain]
    exact Path.components_join_remainder hbase h

/-- Files with the same name have the same steps, as the name leads to them. -/
theorem components_eq_of_relativeUri_eq (hbase : base ≠ "") (h : IsBelow base file)
    (h' : IsBelow base other) (hplain : IsPlainBelow base file) (hplain' : IsPlainBelow base other)
    (heq : relativeUri base file = relativeUri base other) : components file = components other := by
  rw [← (components_join_relativeUri_iff hbase h).mpr hplain, heq,
    (components_join_relativeUri_iff hbase h').mpr hplain']

end Report

/-! ## The files of a scan's findings -/

/-- What a source says is said of its own path. -/
def Source.Owns (s : Source) : Prop :=
  ∀ f ∈ s.facts.toList, f.path = s.path

theorem Source.owns_read (grammar : Grammar) (path text : String) :
    (Source.read grammar path text).Owns :=
  fun _ hf => Source.path_of_read hf

theorem Scan.mem_of_mem_report {α : Type} {s : Scan} {c : Check} {found : List α} {x : α}
    (h : x ∈ s.report c found) : x ∈ found := by
  unfold report at h
  split at h
  · split at h
    · exact List.mem_of_mem_take h
    · exact h
  · cases h

/-- If a check of single files finds things under the path of the file, it does so in sources. -/
theorem Scan.exists_source_of_mem_report {α : Type} {s : Scan} {c : Check} {sources : List Source}
    (howns : ∀ src ∈ sources, src.Owns) {check : Facts → List α} (file : α → String)
    (hcheck : ∀ f, ∀ x ∈ check f, file x = f.path) {x : α}
    (h : x ∈ s.report c (sources.flatMap fun src => src.facts.toList.flatMap check)) :
    ∃ src ∈ sources, file x = src.path := by
  obtain ⟨src, hsrc, hfound⟩ := List.mem_flatMap.mp (mem_of_mem_report h)
  obtain ⟨f, hf, hx⟩ := List.mem_flatMap.mp hfound
  exact ⟨src, hsrc, (hcheck f x hx).trans (howns src hsrc f hf)⟩

theorem Facts.file_of_mem_longMethods {f : Facts} {threshold : Nat} {m : LongMethod}
    (h : m ∈ f.longMethods threshold) : m.declaringFile = f.path := by
  obtain ⟨d, -, rfl⟩ := List.mem_map.mp h
  rfl

theorem Facts.file_of_mem_magicNumbers {f : Facts} {m : MagicNumber} (h : m ∈ f.magicNumbers) :
    m.file = f.path := by
  obtain ⟨l, -, rfl⟩ := List.mem_map.mp h
  rfl

theorem Facts.file_of_mem_namingViolations {f : Facts} {v : NamingViolation}
    (h : v ∈ f.namingViolations) : v.file = f.path := by
  obtain ⟨d, -, hd⟩ := List.mem_filterMap.mp h
  obtain ⟨type, -, rfl⟩ := Declaration.namingViolation?_eq_some_iff.mp hd
  rfl

theorem Facts.file_of_mem_deadCode {f : Facts} {p : Project} {o : DeadCodeOptions} {x : DeadCode}
    (h : x ∈ f.deadCode p o) : x.file = f.path := by
  rw [deadCode_eq_map] at h
  obtain ⟨suspect, -, rfl⟩ := List.mem_map.mp h
  exact suspect.finding_file f.path

/-- Each finding in some sources is in the file of one of them. -/
theorem Scan.exists_source_of_mem_violations {s : Scan} {sources : List Source}
    (howns : ∀ src ∈ sources, src.Owns) {v : Violation} (hv : v ∈ (s.resultOf sources).violations) :
    ∃ src ∈ sources, v.file = src.path := by
  simp only [ScanResult.violations, List.mem_append, List.mem_map] at hv
  rcases hv with ((⟨m, hm, rfl⟩ | ⟨m, hm, rfl⟩) | ⟨m, hm, rfl⟩) | ⟨x, hx, rfl⟩
  · exact exists_source_of_mem_report howns (·.declaringFile)
      (fun _ _ => Facts.file_of_mem_longMethods) hm
  · exact exists_source_of_mem_report howns (·.file) (fun _ _ => Facts.file_of_mem_magicNumbers) hm
  · exact exists_source_of_mem_report howns (·.file) (fun _ _ => Facts.file_of_mem_namingViolations) hm
  · obtain ⟨f, hf, hfound⟩ := List.mem_flatMap.mp (mem_of_mem_report hx)
    obtain ⟨src, hsrc, hfacts⟩ := List.mem_filterMap.mp hf
    exact ⟨src, hsrc, (Facts.file_of_mem_deadCode hfound).trans
      (howns src hsrc f (Option.mem_toList.mpr hfacts))⟩

/-- The sources in a directory have paths below it, made of names. -/
theorem Loader.isBelow_of_mem_path {l : Loader} {fs : FileSystem} {path base : String}
    (hwell : fs.root.WellFormed) (hd : fs.isDirectory path = true)
    (hbase : fs.canonical path = .ok base) {src : Source} (hsrc : src ∈ l.path fs path) :
    Path.IsBelow base src.path ∧
      ∃ names, (∀ name ∈ names, Path.IsName name) ∧ src.path = Path.ofNames names := by
  rw [path_eq hwell] at hsrc
  obtain ⟨⟨names, text⟩, hmem, rfl⟩ := List.mem_map.mp hsrc
  have hnames := isName_of_mem_textsAt hwell hmem
  refine ⟨?_, names, hnames, rfl⟩
  show Path.IsBelow base (Path.ofNames names)
  obtain ⟨above, hpath, habove⟩ := FileSystem.isDirectory_iff.mp hd
  obtain rfl : base = Path.ofNames above :=
    Except.ok.inj (hbase.symm.trans (FileSystem.canonical_of_locate hpath))
  obtain ⟨d, hat, hdirectory⟩ := FileSystem.hasDirectory_iff.mp habove
  cases (mem_textsAt_iff hwell).mp hmem with
  | directly located name content isFile spells admits =>
    obtain rfl := Except.ok.inj (hpath.symm.trans located)
    obtain rfl := Option.some_inj.mp (hat.symm.trans isFile)
    cases hdirectory
  | within above' below e located stands isDirectory whole takes admits =>
    obtain rfl := Except.ok.inj (hpath.symm.trans located)
    have hbelow : below ≠ [] := by
      rintro rfl
      obtain ⟨name, content, hfile, -⟩ := takes.holds
      rw [Option.some_inj.mp hfile] at isDirectory
      cases isDirectory
    rw [whole] at hnames ⊢
    rw [Path.IsBelow, Path.components_ofNames (hwell.isName_of_at? hat),
      Path.components_ofNames hnames, List.map_append]
    exact ⟨List.prefix_append _ _, by simpa using hbelow⟩

/-- **The report tells files apart that have no backslash below the scanned path.** Joined to a base,
the name of a file below it gives back the steps of the file if none of those below the base has a
backslash, and only then. Files without backslashes have the same name only if they have the same steps.
So two findings in a directory, both in files without backslashes below it, have the same name only if
they are in the same file. -/
theorem uris_identify_files {base : String} (hbase : base ≠ "") :
    (∀ file, Path.IsBelow base file →
      (Path.components (Path.join base (Report.relativeUri base file)) = Path.components file ↔
        Path.IsPlainBelow base file)) ∧
    (∀ file other, Path.IsBelow base file → Path.IsBelow base other →
      Path.IsPlainBelow base file → Path.IsPlainBelow base other →
      Report.relativeUri base file = Report.relativeUri base other →
      Path.components file = Path.components other) ∧
    ∀ (s : Scan) (grammar : Grammar) (fs : FileSystem) (path : String) (r : ScanResult),
      fs.root.WellFormed → fs.isDirectory path = true → fs.canonical path = .ok base →
      s.run grammar fs path = .ok r →
      ∀ v ∈ r.violations, Path.IsBelow base v.file ∧
        ∀ w ∈ r.violations, Path.IsPlainBelow base v.file → Path.IsPlainBelow base w.file →
          (Report.SarifResult.ofViolation base v).uri = (Report.SarifResult.ofViolation base w).uri →
          v.file = w.file := by
  refine ⟨fun file h => Report.components_join_relativeUri_iff hbase h,
    fun file other h h' => Report.components_eq_of_relativeUri_eq hbase h h', ?_⟩
  intro s grammar fs path r hwell hd hcanonical hrun
  obtain ⟨l, -, rfl⟩ : ∃ l, s.loader grammar = .ok l ∧ s.resultOf (l.path fs path) = r := by
    cases hloader : s.loader grammar with
    | error bad =>
      rw [Scan.run, hloader] at hrun
      cases hrun
    | ok l =>
      rw [Scan.run, hloader] at hrun
      exact ⟨l, rfl, Except.ok.inj hrun⟩
  have howns : ∀ src ∈ l.path fs path, src.Owns := by
    intro src hsrc
    rw [Loader.path_eq hwell] at hsrc
    obtain ⟨⟨names, text⟩, -, rfl⟩ := List.mem_map.mp hsrc
    exact Source.owns_read l.grammar _ text
  have hfile : ∀ v ∈ (s.resultOf (l.path fs path)).violations, Path.IsBelow base v.file ∧
      ∃ names, (∀ name ∈ names, Path.IsName name) ∧ v.file = Path.ofNames names := by
    intro v hv
    obtain ⟨src, hsrc, heq⟩ := Scan.exists_source_of_mem_violations howns hv
    rw [heq]
    exact Loader.isBelow_of_mem_path hwell hd hcanonical hsrc
  intro v hv
  obtain ⟨hbelow, names, hnames, hv⟩ := hfile v hv
  refine ⟨hbelow, fun w hw hplain hplain' huri => ?_⟩
  obtain ⟨hbelow', names', hnames', hw⟩ := hfile w hw
  have hsteps : Path.components v.file = Path.components w.file :=
    Report.components_eq_of_relativeUri_eq hbase hbelow hbelow' hplain hplain' huri
  rw [hv, hw, Path.components_ofNames hnames, Path.components_ofNames hnames',
    List.cons.injEq] at hsteps
  rw [hv, hw, List.map_injective_iff.mpr (fun a b => Path.Component.name.inj) hsteps.2]

/-- A file, and one of the same name in a directory beside it. -/
def twinEntries : List Entry :=
  [.file "A.cs" Syntax.Node.joinedName.text.toUTF8,
    .directory "lib" [.file "A.cs" Syntax.Node.joinedName.text.toUTF8]]

/-- A file system with these in a directory `src`. -/
def twinFiles : FileSystem where
  root := .directory "" [.directory "src" twinEntries]

def twinLoader : Loader where
  grammar := fun _ => ⟨Syntax.Node.joinedName, false⟩

theorem twinFiles_wellFormed : twinFiles.root.WellFormed := by
  have hlib : ∀ e ∈ [Entry.file "A.cs" Syntax.Node.joinedName.text.toUTF8], e.WellFormed := by
    intro e hmem
    rw [List.mem_singleton.mp hmem]
    exact .file _ _
  have hsrc : ∀ e ∈ twinEntries, e.WellFormed := by
    simp only [twinEntries, List.forall_mem_cons]
    exact ⟨.file _ _, .directory _ _ (by decide) (by decide) hlib, by simp⟩
  refine .directory _ _ (by decide) (by decide) fun e hmem => ?_
  rw [List.mem_singleton.mp hmem]
  exact .directory _ _ (by decide) (by decide) hsrc

/-- Both files are loaded. -/
theorem mem_path_twinFiles {names : List String} (hnames : names ∈ [["A.cs"], ["lib", "A.cs"]]) :
    Source.read twinLoader.grammar (Path.ofNames ("src" :: names)) Syntax.Node.joinedName.text ∈
      twinLoader.path twinFiles "/src" := by
  have hpath : twinFiles.locate "/src" = .ok ["src"] := by decide
  have htakes : twinLoader.Takes ["src"] (.directory "src" twinEntries) names
      Syntax.Node.joinedName.text := by
    have hat : (Entry.directory "src" twinEntries).at? names =
          some (.file "A.cs" Syntax.Node.joinedName.text.toUTF8) ∧
        names.getLast? = some ("A" ++ "." ++ "cs") ∧ ∀ name ∈ names.dropLast,
          name.toList.head? ≠ some '.' ∧ name ∉ ["bin", "obj", "node_modules", "packages"] := by
      simp only [List.mem_cons, List.not_mem_nil, or_false] at hnames
      rcases hnames with rfl | rfl
      · exact ⟨rfl, by decide, by decide⟩
      · exact ⟨rfl, by decide, by decide⟩
    exact ⟨⟨"A.cs", _, hat.1, .inr ⟨rfl, by decide⟩⟩, ⟨"A", "cs", by decide, hat.2.1, by decide⟩,
      hat.2.2, fun _ _ _ g hg => absurd hg List.not_mem_nil⟩
  have hadmits : ∀ names ∈ [["A.cs"], ["lib", "A.cs"]],
      FileSystem.Admits (Path.ofNames ("src" :: names)) := by decide
  rw [Loader.path_eq twinFiles_wellFormed]
  refine List.mem_map.mpr ⟨("src" :: names, Syntax.Node.joinedName.text), ?_, rfl⟩
  exact (Loader.mem_textsAt_iff twinFiles_wellFormed).mpr
    (.within ["src"] names _ hpath rfl rfl rfl htakes (hadmits names hnames))

/-- A scan of the directory finds the class in both files, and the report tells them apart. -/
theorem twinFiles_identified :
    "/src" ≠ "" ∧ (twinFiles.root.WellFormed ∧ twinFiles.isDirectory "/src" = true ∧
      twinFiles.canonical "/src" = .ok "/src") ∧
    ∃ r, ({} : Scan).run twinLoader.grammar twinFiles "/src" = .ok r ∧
      ∃ v ∈ r.violations, ∃ w ∈ r.violations, v.file = "/src/A.cs" ∧ w.file = "/src/lib/A.cs" ∧
        (Report.SarifResult.ofViolation "/src" v).uri ≠
          (Report.SarifResult.ofViolation "/src" w).uri ∧
        Path.components (Path.join "/src" (Report.SarifResult.ofViolation "/src" w).uri) =
          Path.components w.file := by
  have hbase : "/src" ≠ "" := by decide
  obtain ⟨hjoin, -, hscan⟩ := uris_identify_files hbase
  have hd : twinFiles.isDirectory "/src" = true := by decide
  have hcanonical : twinFiles.canonical "/src" = .ok "/src" := by decide
  have hrun : ({} : Scan).run twinLoader.grammar twinFiles "/src" =
      .ok (({} : Scan).resultOf (twinLoader.path twinFiles "/src")) := rfl
  have hviolation : ∀ names ∈ [["A.cs"], ["lib", "A.cs"]],
      (⟨"Stroke_Buffer", .classType, Path.ofNames ("src" :: names), 1, .upperCamel⟩ :
        NamingViolation).violation ∈
      (({} : Scan).resultOf (twinLoader.path twinFiles "/src")).violations := by
    intro names hnames
    have hfound : ∀ names ∈ [["A.cs"], ["lib", "A.cs"]],
        ⟨"Stroke_Buffer", .classType, Path.ofNames ("src" :: names), 1, .upperCamel⟩ ∈
          (Source.read twinLoader.grammar (Path.ofNames ("src" :: names))
            Syntax.Node.joinedName.text).namingViolations := by decide +kernel
    have hreported := List.mem_flatMap.mpr ⟨_, mem_path_twinFiles hnames, hfound names hnames⟩
    exact List.mem_append_left _ (List.mem_append_right _ (List.mem_map_of_mem hreported))
  have hv := hviolation ["A.cs"] (by decide)
  have hw := hviolation ["lib", "A.cs"] (by decide)
  have hapart := (hscan {} twinLoader.grammar twinFiles "/src" _ twinFiles_wellFormed hd hcanonical
    hrun _ hv).2 _ hw (by decide) (by decide)
  refine ⟨hbase, ⟨twinFiles_wellFormed, hd, hcanonical⟩, _, hrun, _, hv, _, hw, by decide,
    by decide, fun huri => absurd (hapart huri) (by decide), ?_⟩
  exact (hjoin _ (by decide)).mpr (by decide)

/-- With a backslash in its name, a file goes by the name of one in a directory. -/
theorem backslash_confuses_uris :
    let file := "/r/a\\b.cs"
    let other := "/r/a/b.cs"
    Path.IsBelow "/r" file ∧ Path.IsBelow "/r" other ∧
      Report.relativeUri "/r" file = Report.relativeUri "/r" other ∧
      Path.components file ≠ Path.components other ∧
      Path.components (Path.join "/r" (Report.relativeUri "/r" file)) ≠ Path.components file := by
  intro file other
  have hfile : Report.relativeUri "/r" file = "a/b.cs" := by
    rw [Report.relativeUri_eq (by decide) (by decide), Report.slashed_eq_ofList]
    decide
  have hother : Report.relativeUri "/r" other = "a/b.cs" := by
    rw [Report.relativeUri_eq (by decide) (by decide), Report.slashed_eq_ofList]
    decide
  rw [hfile, hother]
  decide

end CodeSmell
