import CodeSmell.Proofs.FileSystem.OneFile
import CodeSmell.Proofs.LoadedTexts
import CodeSmell.Scan.Check

/-!
# Findings, file by file

Some checks look at each source by itself. What they find in a directory is then what they find in its
files one after the other, in the order of their paths.

* `Loader.path_eq_of_read` : the source in a file is read from the path and the content alone;
* `Loader.read_of_mem_directory` : a source from a directory is read from the file at its own path;
* `Loader.block` : what is found in one file of a directory, if the file is loaded from there;
* `Loader.FileByFile` : the findings in a directory are those in its files, each by itself, and if one
  file changes only its own block does; so it is for any check of single sources
  (`fileByFile_findings`);
* `findings_file_by_file` : this for long methods, magic numbers and names.
-/

namespace CodeSmell

namespace Loader

variable {α : Type} {l : Loader} {fs fs' : FileSystem} {path : String} {names : List String}

/-! ## Single files -/

/-- The source in a file is read from its path and its content, whatever else there is. -/
theorem path_eq_of_read (h : ∀ name ∈ names, Path.IsName name) {content : ByteArray}
    (hread : fs.read (Path.ofNames names) = .ok content) :
    l.path fs (Path.ofNames names) =
      (Source.ofBytes? l.grammar (Path.ofNames names) content).toList := by
  obtain ⟨there, name, hpath, hat⟩ := FileSystem.read_eq_ok_iff.mp hread
  obtain rfl := FileSystem.eq_of_locate_ofNames h hpath
  have hisFile : fs.isFile (Path.ofNames there) = true := FileSystem.isFile_iff.mpr ⟨content, hread⟩
  have hnone : l.directory fs (Path.ofNames there) = [] := by
    rw [directory, FileSystem.entry_of_locate hpath hat]
  rw [Loader.path, if_pos hisFile, FileSystem.absolute_of_locate hpath, hnone, List.append_nil, file?,
    hread, FileSystem.absolute_of_locate hpath]

def sourceOf (l : Loader) (found : List String × String) : Source :=
  Source.read l.grammar (Path.ofNames found.1) found.2

theorem path_sourceOf (l : Loader) (found : List String × String) :
    (l.sourceOf found).path = Path.ofNames found.1 :=
  rfl

theorem exists_file_of_mem_textsAt (hwell : fs.root.WellFormed) {text : String}
    (hmem : (names, text) ∈ l.textsAt fs path) :
    FileSystem.Admits (Path.ofNames names) ∧
      ∃ name content, fs.root.at? names = some (.file name content) ∧ Source.Spells content text := by
  cases (mem_textsAt_iff hwell).mp hmem with
  | directly located name content isFile spells admits => exact ⟨admits, name, content, isFile, spells⟩
  | within above below d located stands isDirectory whole takes admits =>
    obtain ⟨name, content, hat, hspells⟩ := takes.holds
    refine ⟨admits, name, content, ?_, hspells⟩
    rw [whole, Entry.at?_append, stands]
    exact hat

theorem isName_of_mem_textsAt (hwell : fs.root.WellFormed) {text : String}
    (hmem : (names, text) ∈ l.textsAt fs path) : ∀ name ∈ names, Path.IsName name := by
  obtain ⟨-, name, content, hat, -⟩ := exists_file_of_mem_textsAt hwell hmem
  exact hwell.isName_of_at? hat

/-! ## The files of a directory -/

theorem directory_eq_path (hd : fs.isDirectory path = true) : l.directory fs path = l.path fs path := by
  obtain ⟨names, hpath, hnames⟩ := FileSystem.isDirectory_iff.mp hd
  obtain ⟨d, hat, hdirectory⟩ := FileSystem.hasDirectory_iff.mp hnames
  have hisFile : fs.isFile path = false := by
    rw [FileSystem.isFile_of_locate hpath hat, hdirectory]
    rfl
  rw [Loader.path, if_neg (Bool.eq_false_iff.mp hisFile)]
  rfl

theorem directory_eq_sources (hwell : fs.root.WellFormed) (hd : fs.isDirectory path = true) :
    l.directory fs path = (l.textsAt fs path).map l.sourceOf := by
  rw [directory_eq_path hd, path_eq hwell]
  rfl

/-- A source that is loaded from a directory is the one in the file at its own path. -/
theorem read_of_mem_directory (hwell : fs.root.WellFormed) (hd : fs.isDirectory path = true) {s : Source}
    (hs : s ∈ l.directory fs path) :
    ∃ names content, (∀ name ∈ names, Path.IsName name) ∧ s.path = Path.ofNames names ∧
      fs.read s.path = .ok content ∧ Source.ofBytes? l.grammar s.path content = some s := by
  obtain ⟨above, -, habove⟩ := FileSystem.isDirectory_iff.mp hd
  have hroot := FileSystem.root_isDirectory habove
  rw [directory_eq_sources hwell hd] at hs
  obtain ⟨⟨names, text⟩, hmem, rfl⟩ := List.mem_map.mp hs
  obtain ⟨hadmits, name, content, hat, hspells⟩ := exists_file_of_mem_textsAt hwell hmem
  have hnames := hwell.isName_of_at? hat
  have hne : names ≠ [] := by
    rintro rfl
    rw [Option.some_inj.mp hat] at hroot
    cases hroot
  have hpath := (FileSystem.locate_ofNames_iff hne hnames).mpr ⟨by rw [hat]; rfl, hadmits⟩
  refine ⟨names, content, hnames, rfl, FileSystem.read_eq_ok_iff.mpr ⟨names, name, hpath, hat⟩, ?_⟩
  obtain ⟨full, hfull, rfl⟩ := Option.map_eq_some_iff.mp (Source.spells_iff.mp hspells)
  rw [Source.ofBytes?, hfull]
  rfl

/-- A source that is loaded from a directory is loaded from its own path too, and alone. -/
theorem path_of_mem_directory (hwell : fs.root.WellFormed) (hd : fs.isDirectory path = true) {s : Source}
    (hs : s ∈ l.directory fs path) : l.path fs s.path = [s] := by
  obtain ⟨names, content, hnames, hpath, hread, hsource⟩ := read_of_mem_directory hwell hd hs
  rw [hpath] at hread hsource ⊢
  rw [path_eq_of_read hnames hread, hsource]
  rfl

/-! ## One file among the others -/

/-- The texts at a path are those before some names, those at them and those behind. -/
theorem textsAt_eq_append (l : Loader) (path : String) (hwell : fs.root.WellFormed)
    (names : List String) :
    l.textsAt fs path = (l.textsAt fs path).filter (·.1 < names) ++
      (l.textsAt fs path).filter (·.1 = names) ++ (l.textsAt fs path).filter (names < ·.1) := by
  have hsorted : (l.textsAt fs path).Pairwise (·.1 < ·.1) := textsAt_pairwise hwell
  refine texts_ext hsorted ?_ fun found => ?_
  · simp only [List.pairwise_append, List.mem_append, List.mem_filter, decide_eq_true_eq]
    refine ⟨⟨hsorted.filter _, hsorted.filter _, ?_⟩, hsorted.filter _, ?_⟩
    · rintro a ⟨-, ha⟩ b ⟨-, rfl⟩
      exact ha
    · rintro a (⟨-, ha⟩ | ⟨-, rfl⟩) b ⟨-, hb⟩
      · exact List.lt_trans ha hb
      · exact hb
  · have hplace := Std.lt_trichotomy found.1 names
    simp only [List.mem_append, List.mem_filter, decide_eq_true_eq]
    tauto

theorem filter_eq_singleton {texts : List (List String × String)} (h : texts.Pairwise (·.1 < ·.1))
    {text : String} (hmem : (names, text) ∈ texts) : texts.filter (·.1 = names) = [(names, text)] := by
  have hsorted := h.filter (·.1 = names)
  have hkey : ∀ found ∈ texts.filter (·.1 = names), found.1 = names := fun found hfound =>
    of_decide_eq_true (List.mem_filter.mp hfound).2
  have hthere : (names, text) ∈ texts.filter (·.1 = names) :=
    List.mem_filter.mpr ⟨hmem, decide_eq_true rfl⟩
  match hfound : texts.filter (·.1 = names) with
  | [] =>
    rw [hfound] at hthere
    cases hthere
  | [found] =>
    rw [hfound] at hthere
    rw [hfound, List.mem_singleton.mp hthere]
  | first :: second :: rest =>
    rw [hfound] at hsorted hkey
    have hlt := (List.pairwise_cons.mp hsorted).1 second List.mem_cons_self
    rw [hkey first (by simp), hkey second (by simp)] at hlt
    exact absurd hlt (List.lt_irrefl names)

theorem Takes.of_at?_file {above : List String} {d d' : Entry} {text : String}
    (h : ∀ name content, d.at? names = some (.file name content) →
      d'.at? names = some (.file name content)) (htakes : l.Takes above d names text) :
    l.Takes above d' names text := by
  obtain ⟨⟨name, content, hat, hspells⟩, hknown, hentered, hadmitted⟩ := htakes
  exact ⟨⟨name, content, h name content hat, hspells⟩, hknown, hentered, hadmitted⟩

/-- A loader comes from a directory to a file if it comes from there to the same file elsewhere. -/
theorem ComesTo.of_at?_file {above : List String} {d : Entry} {text : String}
    (hpath : fs.locate path = .ok above) (hd : fs.hasDirectory above = true)
    (hpath' : fs'.locate path = .ok above) (hat' : fs'.root.at? above = some d)
    (hdirectory' : d.isDirectory = true)
    (h : ∀ name content, fs.root.at? names = some (.file name content) →
      fs'.root.at? names = some (.file name content))
    (hcomes : l.ComesTo fs path names text) : l.ComesTo fs' path names text := by
  cases hcomes with
  | directly located name content isFile spells admits =>
    -- the path is that of a directory, and leads to no file
    obtain rfl := Except.ok.inj (hpath.symm.trans located)
    obtain ⟨e, he, hdirectory⟩ := FileSystem.hasDirectory_iff.mp hd
    obtain rfl := Option.some_inj.mp (he.symm.trans isFile)
    cases hdirectory
  | within above' below e located stands isDirectory whole takes admits =>
    obtain rfl := Except.ok.inj (hpath.symm.trans located)
    refine .within above below d hpath' hat' hdirectory' whole (takes.of_at?_file ?_) admits
    intro name content hfile
    have hthere := h name content (by rw [whole, Entry.at?_append, stands]; exact hfile)
    rwa [whole, Entry.at?_append, hat'] at hthere

/-- If two file systems differ in one file, a loader comes from a directory to the same other files. -/
theorem comesTo_iff_of_differsAt (h : FileSystem.DiffersAt names fs fs') {above : List String}
    (hpath : fs.locate path = .ok above) (hd : fs.hasDirectory above = true) {other : List String}
    (hother : other ≠ names) {text : String} :
    l.ComesTo fs' path other text ↔ l.ComesTo fs path other text := by
  have hpath' := h.leads path above hpath hd
  have hd' := h.directories above hd
  have hfile := h.files other hother
  obtain ⟨d, hat, hdirectory⟩ := FileSystem.hasDirectory_iff.mp hd
  obtain ⟨d', hat', hdirectory'⟩ := FileSystem.hasDirectory_iff.mp hd'
  constructor
  · exact .of_at?_file hpath' hd' hpath hat hdirectory fun name content => (hfile name content).mp
  · exact .of_at?_file hpath hd hpath' hat' hdirectory' fun name content => (hfile name content).mpr

theorem filter_textsAt_eq (h : FileSystem.DiffersAt names fs fs') (hwell : fs.root.WellFormed)
    {above : List String} (hpath : fs.locate path = .ok above) (hd : fs.hasDirectory above = true)
    {p : List String × String → Bool} (hp : ∀ found, p found = true → found.1 ≠ names) :
    (l.textsAt fs' path).filter p = (l.textsAt fs path).filter p := by
  refine texts_ext ((textsAt_pairwise h.wellFormed).filter p) ((textsAt_pairwise hwell).filter p)
    fun (other, text) => ?_
  rw [List.mem_filter, List.mem_filter, mem_textsAt_iff hwell, mem_textsAt_iff h.wellFormed]
  exact and_congr_left fun hother => comesTo_iff_of_differsAt h hpath hd (hp _ hother)

/-- What is found in the file at some names by its own path, if it is loaded from a directory; if it
is not, nothing is. -/
def block (l : Loader) (find : FileSystem → String → List α) (fs : FileSystem) (path : String)
    (names : List String) : List α :=
  if (l.directory fs path).any (·.path = Path.ofNames names) then find fs (Path.ofNames names) else []

/-- What a check of single sources finds at a path. -/
def findings (l : Loader) (check : Source → List α) (fs : FileSystem) (path : String) : List α :=
  (l.path fs path).flatMap check

section Findings

variable {check : Source → List α} (hwell : fs.root.WellFormed) (hd : fs.isDirectory path = true)
include hwell hd

theorem findings_eq : l.findings check fs path =
    (l.textsAt fs path).flatMap fun found => check (l.sourceOf found) := by
  rw [findings, ← directory_eq_path hd, directory_eq_sources hwell hd, List.flatMap_map]

theorem findings_own {s : Source} (hs : s ∈ l.directory fs path) :
    l.findings check fs s.path = check s := by
  rw [findings, path_of_mem_directory hwell hd hs, List.flatMap_singleton]

theorem block_eq (hnames : ∀ name ∈ names, Path.IsName name) :
    l.block (l.findings check) fs path names =
      ((l.textsAt fs path).filter (·.1 = names)).flatMap fun found => check (l.sourceOf found) := by
  have hsources := directory_eq_sources (l := l) hwell hd
  by_cases hloaded : ∃ text, (names, text) ∈ l.textsAt fs path
  · obtain ⟨text, hmem⟩ := hloaded
    have hs : l.sourceOf (names, text) ∈ l.directory fs path := by
      rw [hsources]
      exact List.mem_map_of_mem hmem
    have hany : (l.directory fs path).any (·.path = Path.ofNames names) = true :=
      List.any_eq_true.mpr ⟨_, hs, decide_eq_true rfl⟩
    have hown : l.findings check fs (l.sourceOf (names, text)).path =
        check (l.sourceOf (names, text)) := findings_own hwell hd hs
    rw [path_sourceOf] at hown
    rw [block, if_pos hany, hown, filter_eq_singleton (textsAt_pairwise hwell) hmem,
      List.flatMap_singleton]
  · have hany : ¬ (l.directory fs path).any (·.path = Path.ofNames names) = true := by
      rw [List.any_eq_true]
      rintro ⟨s, hs, heq⟩
      rw [hsources] at hs
      obtain ⟨⟨other, text⟩, hmem, rfl⟩ := List.mem_map.mp hs
      have hsame := Path.ofNames_injective (isName_of_mem_textsAt hwell hmem) hnames
        (of_decide_eq_true heq)
      exact hloaded ⟨text, hsame ▸ hmem⟩
    have hnone : (l.textsAt fs path).filter (·.1 = names) = [] := by
      refine List.filter_eq_nil_iff.mpr ?_
      rintro ⟨other, text⟩ hmem heq
      exact hloaded ⟨text, (of_decide_eq_true heq) ▸ hmem⟩
    rw [block, if_neg hany, hnone, List.flatMap_nil]

end Findings

/-! ## What is found in a directory -/

/-- What is found in a directory is found in its files, each by itself. -/
structure FileByFile (l : Loader) (find : FileSystem → String → List α) (fs : FileSystem)
    (path : String) : Prop where
  /-- The findings in the directory are those in its files, each found by its own path. -/
  whole : find fs path = (l.directory fs path).flatMap fun s => find fs s.path
  /-- What is found in a file depends on its path and its content only. -/
  independent : ∀ s ∈ l.directory fs path, ∀ fs', fs'.read s.path = fs.read s.path →
    find fs' s.path = find fs s.path
  /-- If one file is written or removed, its own block of the findings changes and nothing else. -/
  changed : ∀ fs' names, FileSystem.ChangesFile fs fs' names → ∃ before after,
    find fs path = before ++ l.block find fs path names ++ after ∧
    find fs' path = before ++ l.block find fs' path names ++ after

theorem findings_changed (check : Source → List α) (hwell : fs.root.WellFormed)
    (hd : fs.isDirectory path = true) (h : FileSystem.ChangesFile fs fs' names) : ∃ before after,
      l.findings check fs path = before ++ l.block (l.findings check) fs path names ++ after ∧
      l.findings check fs' path = before ++ l.block (l.findings check) fs' path names ++ after := by
  obtain ⟨above, hpath, habove⟩ := FileSystem.isDirectory_iff.mp hd
  have hnames := h.isName hwell
  have hroot : fs.hasDirectory [] = true :=
    FileSystem.hasDirectory_iff.mpr ⟨fs.root, rfl, FileSystem.root_isDirectory habove⟩
  have hdiffers := h.differsAt hwell hroot
  have hd' : fs'.isDirectory path = true := FileSystem.isDirectory_iff.mpr
    ⟨above, hdiffers.leads path above hpath habove, hdiffers.directories above habove⟩
  -- the texts before the names and behind them are the same, so that those at the names are left
  have hbefore : (l.textsAt fs' path).filter (·.1 < names) =
      (l.textsAt fs path).filter (·.1 < names) := by
    refine filter_textsAt_eq hdiffers hwell hpath habove ?_
    rintro found hlt rfl
    exact List.lt_irrefl found.1 (of_decide_eq_true hlt)
  have hafter : (l.textsAt fs' path).filter (names < ·.1) =
      (l.textsAt fs path).filter (names < ·.1) := by
    refine filter_textsAt_eq hdiffers hwell hpath habove ?_
    rintro found hlt rfl
    exact List.lt_irrefl found.1 (of_decide_eq_true hlt)
  have hsplit := textsAt_eq_append l path hwell names
  have hsplit' := textsAt_eq_append l path hdiffers.wellFormed names
  rw [hbefore, hafter] at hsplit'
  refine ⟨((l.textsAt fs path).filter (·.1 < names)).flatMap fun found => check (l.sourceOf found),
    ((l.textsAt fs path).filter (names < ·.1)).flatMap fun found => check (l.sourceOf found), ?_, ?_⟩
  · rw [findings_eq hwell hd, block_eq hwell hd hnames, ← List.flatMap_append,
      ← List.flatMap_append, ← hsplit]
  · rw [findings_eq hdiffers.wellFormed hd', block_eq hdiffers.wellFormed hd' hnames,
      ← List.flatMap_append, ← List.flatMap_append, ← hsplit']

/-- Checks that look at each source by itself find in a directory what they find file by file. -/
theorem fileByFile_findings (check : Source → List α) (hwell : fs.root.WellFormed)
    (hd : fs.isDirectory path = true) : l.FileByFile (l.findings check) fs path where
  whole := by
    rw [findings, ← directory_eq_path hd]
    exact (List.flatMap_congr fun s hs => findings_own hwell hd hs).symm
  independent s hs fs' hsame := by
    obtain ⟨names, content, hnames, hpath, hread, -⟩ := read_of_mem_directory hwell hd hs
    rw [hpath] at hread hsame ⊢
    rw [findings, findings, path_eq_of_read hnames hread, path_eq_of_read hnames (hsame.trans hread)]
  changed fs' names h := findings_changed check hwell hd h

end Loader

/-- **Findings, file by file.** A directory is loaded in the order of the names that lead to its
files. The long methods, magic numbers and misnamed things found in it are those found in each of
these files by its own path, one file after the other. What is found in a file depends on that file
only, and if a file is written or removed, no more than its own block of the findings changes. -/
theorem findings_file_by_file (l : Loader) (fs : FileSystem) (path : String)
    (hwell : fs.root.WellFormed) (hd : fs.isDirectory path = true) :
    (∃ order : List (List String), order.Pairwise (· < ·) ∧
      (∀ names ∈ order, ∀ name ∈ names, Path.IsName name) ∧
      (l.directory fs path).map (·.path) = order.map Path.ofNames) ∧
    (∀ threshold, l.FileByFile (l.findLongMethods · · threshold) fs path) ∧
    l.FileByFile l.findMagicNumbers fs path ∧
    l.FileByFile l.findNamingViolations fs path := by
  refine ⟨⟨(l.textsAt fs path).map (·.1), ?_, ?_, ?_⟩, ?_, ?_, ?_⟩
  · exact List.pairwise_map.mpr (Loader.textsAt_pairwise hwell)
  · intro names hnames
    obtain ⟨⟨_, text⟩, hmem, rfl⟩ := List.mem_map.mp hnames
    exact Loader.isName_of_mem_textsAt hwell hmem
  · rw [Loader.directory_eq_sources hwell hd, List.map_map, List.map_map]
    rfl
  · exact fun threshold => Loader.fileByFile_findings (·.longMethods threshold) hwell hd
  · exact Loader.fileByFile_findings (·.magicNumbers) hwell hd
  · exact Loader.fileByFile_findings (·.namingViolations) hwell hd

/-- A directory with two sources. -/
def pairEntries : List Entry :=
  [.file "B.cs" "class B {}".toUTF8, .file "A.cs" "class A {}".toUTF8]

/-- A file system with this directory under the name `src`. -/
def pairFiles : FileSystem where
  root := .directory "" [.directory "src" pairEntries]

def plainLoader : Loader where
  grammar := oldExcluded.grammar

theorem pairFiles_file_by_file :
    (pairFiles.root.WellFormed ∧ pairFiles.isDirectory "/src" = true) ∧
    plainLoader.FileByFile plainLoader.findMagicNumbers pairFiles "/src" := by
  have hsrc : (Entry.directory "src" pairEntries).WellFormed := by
    refine .directory _ _ (by decide) (by decide) ?_
    simp only [pairEntries, List.forall_mem_cons]
    exact ⟨.file _ _, .file _ _, by simp⟩
  have hwell : pairFiles.root.WellFormed := by
    refine .directory _ _ (by decide) (by decide) fun e hmem => ?_
    rw [List.mem_singleton.mp hmem]
    exact hsrc
  have hd : pairFiles.isDirectory "/src" = true := by decide
  obtain ⟨-, -, hmagic, -⟩ := findings_file_by_file plainLoader pairFiles "/src" hwell hd
  exact ⟨⟨hwell, hd⟩, hmagic⟩

end CodeSmell
