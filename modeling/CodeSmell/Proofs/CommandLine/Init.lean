import CodeSmell.CommandLine.Outcome
import CodeSmell.Proofs.FileSystem.Placing

/-!
# Writing a configuration to start from

* `FileSystem.Extends` : there are more directories, and the same files; so it is when directories are
  made (`extends_makeDirectories`);
* `foldlM_step_ok_of_no_up` : without two dots, segments lead where they do in another file system,
  if the directory that they lead to is there;
* `makeDirectory_of_isDirectory` : a directory that is there is not made again;
* `init_cases` : how the command ends, and with which file system;
* `Strays` : a path goes up, and the directory that it is in is missing;
* `init_spares_files` : the command changes no file that was there, unless its path strays;
* `straying_path_overwrites` : if the path strays, a file can be lost.
-/

namespace CodeSmell

namespace FileSystem

variable {fs fs' fs'' : FileSystem}

/-! ## More directories -/

/-- The second file system has what the first has, and directories besides, but no other file. -/
structure Extends (fs fs' : FileSystem) : Prop where
  working : fs'.working = fs.working
  kept : ∀ names e, fs.root.at? names = some e → (fs'.root.at? names).map Entry.label = some e.label
  files : ∀ names name content, fs'.root.at? names = some (.file name content) →
    fs.root.at? names = some (.file name content)

theorem Extends.refl (fs : FileSystem) : fs.Extends fs :=
  ⟨rfl, fun names e he => by rw [he, Option.map_some], fun _ _ _ => id⟩

theorem Extends.trans (h : fs.Extends fs') (h' : fs'.Extends fs'') : fs.Extends fs'' := by
  refine ⟨h'.working.trans h.working, fun names e he => ?_, fun names name content hfile =>
    h.files names name content (h'.files names name content hfile)⟩
  obtain ⟨e', he', hsame⟩ := Option.map_eq_some_iff.mp (h.kept names e he)
  rw [h'.kept names e' he', hsame]

theorem Extends.at?_file (h : fs.Extends fs') {names : List String} {name : String}
    {content : ByteArray} (hfile : fs.root.at? names = some (.file name content)) :
    fs'.root.at? names = some (.file name content) := by
  obtain ⟨e', he', hsame⟩ := Option.map_eq_some_iff.mp (h.kept names _ hfile)
  rw [he', Entry.label_eq_file_iff.mp hsame]

theorem extends_of_makeDirectory {path : String} (h : fs.makeDirectory path = .ok fs') :
    fs.Extends fs' := by
  obtain ⟨names, name, hfree, hgains⟩ := gains_of_makeDirectory h
  refine ⟨hgains.working, fun other e he => ?_, fun other n content hfile =>
    (at?_file_iff_of_makeDirectory h).mp hfile⟩
  have hne : other ≠ names := by
    rintro rfl
    rw [he] at hfree
    cases hfree
  rw [hgains.root.elsewhere other hne, he, Option.map_some]

theorem extends_orExisting {path : String} {attempt : Except Fault FileSystem}
    (h : ∀ fs', attempt = .ok fs' → fs.Extends fs') : fs.Extends (fs.orExisting path attempt).1 := by
  cases attempt with
  | ok fs' => exact h fs' rfl
  | error f => cases f <;> exact Extends.refl fs

theorem extends_makeChain (paths : List String) (fs : FileSystem) :
    fs.Extends (fs.makeChain paths).1 := by
  induction paths generalizing fs with
  | nil => exact Extends.refl fs
  | cons path above ih =>
    rw [makeChain]
    split
    · have habove := ih fs
      split
      · next fs' hchain =>
        rw [hchain] at habove
        exact habove.trans (extends_orExisting fun _ => extends_of_makeDirectory)
      · exact habove
    · exact extends_orExisting fun _ => extends_of_makeDirectory

theorem extends_makeDirectories (fs : FileSystem) (path : String) :
    fs.Extends (fs.makeDirectories path).1 :=
  extends_makeChain _ fs

/-! ## What was written -/

theorem at?_of_gains {names : List String} {name : String} {content : ByteArray}
    (h : Gains names (name, some content) fs fs') :
    fs'.root.at? names = some (.file name content) := by
  obtain ⟨e, he, hlabel⟩ := Option.map_eq_some_iff.mp h.root.there
  rw [he, Entry.label_eq_file_iff.mp hlabel]

theorem read_of_gains {path : String} {names : List String} {name : String} {content : ByteArray}
    (hpath : fs'.locate path = .ok names) (h : Gains names (name, some content) fs fs') :
    fs'.read path = .ok content :=
  read_eq_ok_iff.mpr ⟨names, name, hpath, at?_of_gains h⟩

theorem holds_of_gains {path : String} {names : List String} {name : String} {content : ByteArray}
    (hpath : fs'.locate path = .ok names) (h : Gains names (name, some content) fs fs') :
    fs'.holds path = true := by
  unfold holds entry?
  rw [hpath]
  dsimp only
  rw [at?_of_gains h, Option.isSome_some]

/-! ## Paths that lead to what was there before -/

theorem hasDirectory_above {here there : List String} (hthere : fs.hasDirectory there = true)
    (hstart : here <+: there) : fs.hasDirectory here = true := by
  obtain ⟨rest, rfl⟩ := hstart
  obtain ⟨d, hat, hd⟩ := hasDirectory_iff.mp hthere
  rw [Entry.at?_append, Option.bind_eq_some_iff] at hat
  obtain ⟨e, he, hrest⟩ := hat
  refine hasDirectory_iff.mpr ⟨e, he, ?_⟩
  by_cases hne : rest = []
  · subst hne
    obtain rfl : e = d := by simpa [Entry.at?] using hrest
    exact hd
  · exact Entry.isDirectory_of_at? hne hrest

/-- Without two dots, segments only lead further down, so that they lead to a directory in every file
system that has it. -/
theorem foldlM_step_ok_of_no_up {segments here there : List String} (hup : ".." ∉ segments)
    (hsteps : segments.foldlM fs'.step here = .ok there) (hthere : fs.hasDirectory there = true) :
    here <+: there ∧ segments.foldlM fs.step here = .ok there := by
  induction segments generalizing here with
  | nil =>
    cases hsteps
    exact ⟨List.prefix_rfl, rfl⟩
  | cons segment rest ih =>
    obtain ⟨next, hstep, hrest⟩ := foldlM_step_cons_eq_ok_iff.mp hsteps
    obtain ⟨hsegment, hup⟩ := not_or.mp (mt List.mem_cons.mpr hup)
    obtain ⟨hdown, hrest⟩ := ih hup hrest
    have hnext := hasDirectory_above hthere hdown
    obtain ⟨-, hstep⟩ := step_eq_ok_iff.mp hstep
    split at hstep
    · next hidle =>
      subst hstep
      refine ⟨hdown, foldlM_step_cons_eq_ok_iff.mpr ⟨next, ?_, hrest⟩⟩
      exact step_eq_ok_iff.mpr ⟨hnext, by rw [if_pos hidle]⟩
    · next hidle =>
      rw [if_neg (Ne.symm hsegment)] at hstep
      obtain ⟨hshort, rfl, -⟩ := hstep
      have hhere : here <+: there := (List.prefix_append here [segment]).trans hdown
      refine ⟨hhere, foldlM_step_cons_eq_ok_iff.mpr ⟨_, ?_, hrest⟩⟩
      refine step_eq_ok_iff.mpr ⟨hasDirectory_above hthere hhere, ?_⟩
      rw [if_neg hidle, if_neg (Ne.symm hsegment)]
      obtain ⟨d, hat, -⟩ := hasDirectory_iff.mp hnext
      exact ⟨hshort, rfl, Option.isSome_iff_exists.mpr ⟨d, hat⟩⟩

/-- A directory that is there is not made again. -/
theorem makeDirectory_of_isDirectory {path : String} (h : fs.isDirectory path = true) :
    fs.makeDirectory path = .error .alreadyThere := by
  obtain ⟨names, hpath, -⟩ := isDirectory_iff.mp h
  obtain ⟨haccepted, hresolve⟩ := locate_eq_ok_iff.mp hpath
  obtain ⟨-, -, hsteps⟩ := resolve_eq_ok_iff.mp hresolve
  unfold makeDirectory
  rw [haccepted]
  split
  · next hrefused => cases hrefused
  · rfl
  · next before name withSlash _ hlast =>
    obtain ⟨after, hsegments, -, hne, -⟩ := lastSegment?_eq_some hlast
    rw [hsegments, List.foldlM_append] at hsteps
    cases hleads : before.foldlM fs.step (fs.start path) with
    | error f => rw [hleads] at hsteps; cases hsteps
    | ok above =>
      rw [hleads] at hsteps
      obtain ⟨next, hstep, -⟩ := foldlM_step_cons_eq_ok_iff.mp hsteps
      obtain ⟨hd, hstep⟩ := step_eq_ok_iff.mp hstep
      rw [directoryAt_eq_ok_iff.mpr ⟨hleads, hd⟩, Except.bind]
      by_cases hdots : name = "." ∨ name = ".."
      · rw [if_pos (by simpa using hdots)]
      · obtain ⟨hhere, hup⟩ := not_or.mp hdots
        rw [if_neg (not_or.mpr ⟨hne, hhere⟩), if_neg hup] at hstep
        obtain ⟨hshort, rfl, hthere⟩ := hstep
        rw [if_neg (by simpa using hdots), if_neg (Nat.not_lt.mpr hshort), if_pos hthere]

theorem makeDirectories_of_isDirectory {path : String} (h : fs.isDirectory path = true) :
    fs.makeDirectories path = (fs, none) := by
  have hmade : ∀ above, fs.makeChain (path :: above) = (fs, none) := by
    intro above
    rw [makeChain, makeDirectory_of_isDirectory h]
    dsimp only
    rw [orExisting, if_pos h]
  unfold makeDirectories ancestors
  dsimp only
  split
  · rfl
  · exact hmade _

end FileSystem

namespace CommandLine

open FileSystem

variable {fs : FileSystem} {path : String}

/-! ## How the command ends -/

theorem extends_makeParent (fs : FileSystem) (path : String) :
    fs.Extends (makeParent fs path).1 := by
  unfold makeParent
  split
  · exact Extends.refl fs
  · split
    · exact Extends.refl fs
    · exact extends_makeDirectories fs _

theorem init_of_holds (h : fs.holds path = true) :
    (init fs path).exitCode = 2 ∧ (init fs path).fileSystem = fs := by
  rw [init, if_pos h]
  exact ⟨rfl, rfl⟩

/-- Where nothing is, the command makes directories and fails, or makes directories and writes the
configuration. -/
theorem init_cases (h : fs.holds path = false) :
    ((init fs path).exitCode = 2 ∧ fs.Extends (init fs path).fileSystem) ∨
    ((init fs path).exitCode = 0 ∧ fs.Extends (makeParent fs path).1 ∧
      (makeParent fs path).1.write path Settings.template.toUTF8 =
        .ok (init fs path).fileSystem) := by
  have hmade := extends_makeParent fs path
  rw [init, if_neg (by simp [h])]
  split
  · next between f hparent =>
    rw [hparent] at hmade
    exact .inl ⟨rfl, hmade⟩
  · next between hparent =>
    rw [hparent] at hmade ⊢
    dsimp only at hmade ⊢
    split
    · exact .inl ⟨rfl, hmade⟩
    · next written hwrite => exact .inr ⟨rfl, hmade, hwrite⟩

/-! ## Files that were there before -/

/-- A path goes up, and the directory that it is in is missing. -/
def Strays (fs : FileSystem) (path : String) : Prop :=
  ".." ∈ Path.segments path ∧ ∀ parent, Path.parent? path = some parent → fs.isDirectory parent = false

theorem makeParent_of_isDirectory {parent : String} (hparent : Path.parent? path = some parent)
    (h : fs.isDirectory parent = true) : makeParent fs path = (fs, none) := by
  rw [makeParent, hparent]
  dsimp only
  split
  · rfl
  · exact makeDirectories_of_isDirectory h

/-- Unless the path strays, it leads to a file that is written over before anything is made. -/
theorem holds_of_write_over {content before : ByteArray} {written : FileSystem} {names : List String}
    {name : String} (hstrays : ¬ Strays fs path)
    (hwrite : (makeParent fs path).1.write path content = .ok written)
    (hpath : written.locate path = .ok names)
    (hfile : fs.root.at? names = some (.file name before)) : fs.holds path = true := by
  have hmade := extends_makeParent fs path
  obtain ⟨segments, above, last, hsegments, henters, hsame, -⟩ := gains_of_write hwrite
  obtain rfl : names = above ++ [last] := Except.ok.inj (hpath.symm.trans hsame)
  have habove : fs.hasDirectory above = true := by
    have hway := hfile
    rw [Entry.at?_append, Option.bind_eq_some_iff] at hway
    obtain ⟨d, hd, hlast⟩ := hway
    exact hasDirectory_iff.mpr ⟨d, hd, Entry.isDirectory_of_at? (List.cons_ne_nil last []) hlast⟩
  have hleads : segments.foldlM fs.step (fs.start path) = .ok above := by
    have hlater := henters.leads
    by_cases hup : ".." ∈ Path.segments path
    · -- nothing is made, since the directory of the path is there
      obtain ⟨parent, hparent, hthere⟩ : ∃ parent, Path.parent? path = some parent ∧
          fs.isDirectory parent = true := by
        by_contra hnone
        refine hstrays ⟨hup, fun parent hparent => ?_⟩
        rw [← Bool.not_eq_true]
        exact fun hthere => hnone ⟨parent, hparent, hthere⟩
      rw [makeParent_of_isDirectory hparent hthere] at hlater
      exact hlater
    · have hstart : (makeParent fs path).1.start path = fs.start path := by
        unfold start
        rw [hmade.working]
      rw [hstart] at hlater
      have hup' : ".." ∉ segments := fun hmem => hup (by simp [hsegments, hmem])
      exact (foldlM_step_ok_of_no_up hup' hlater habove).2
  have henters' : fs.Enters path segments above last :=
    ⟨henters.accepted, hleads, habove, henters.isName, henters.short⟩
  have hthere : (fs.root.at? (above ++ [last])).isSome := Option.isSome_iff_exists.mpr ⟨_, hfile⟩
  unfold holds entry?
  rw [henters'.locate_ok hsegments hthere]
  exact hthere

/-- **The command writes its configuration over no file, unless its path strays.** Where something is
at the path, it fails and changes nothing. If it succeeds, the path leads to the configuration, so
that the command fails the second time. If it fails, there are more directories at most. Of the files
that there are afterwards, only the one at the path may be new, and of those that were there before,
only that one may be lost, which takes a path that goes up and whose directory was missing. -/
theorem init_spares_files (fs : FileSystem) (path : String) :
    ((init fs path).exitCode = 0 ∨ (init fs path).exitCode = 2) ∧
    (fs.holds path = true → (init fs path).exitCode = 2 ∧ (init fs path).fileSystem = fs) ∧
    ((init fs path).exitCode = 0 →
      (init fs path).fileSystem.read path = .ok Settings.template.toUTF8 ∧
      (init (init fs path).fileSystem path).exitCode = 2) ∧
    ((init fs path).exitCode = 2 → fs.Extends (init fs path).fileSystem) ∧
    (∀ names name content, (init fs path).fileSystem.root.at? names = some (.file name content) →
      fs.root.at? names = some (.file name content) ∨
      (init fs path).exitCode = 0 ∧ (init fs path).fileSystem.locate path = .ok names) ∧
    ∀ names name content, fs.root.at? names = some (.file name content) →
      (init fs path).fileSystem.root.at? names = some (.file name content) ∨
      (init fs path).exitCode = 0 ∧ (init fs path).fileSystem.locate path = .ok names ∧
        Strays fs path := by
  by_cases hholds : fs.holds path = true
  · obtain ⟨hexit, hsame⟩ := init_of_holds hholds
    rw [hexit, hsame]
    exact ⟨.inr rfl, fun _ => ⟨rfl, rfl⟩, nofun, fun _ => Extends.refl fs, fun _ _ _ => .inl,
      fun _ _ _ => .inl⟩
  rw [Bool.not_eq_true] at hholds
  rcases init_cases hholds with ⟨hexit, hmade⟩ | ⟨hexit, hmade, hwrite⟩
  · rw [hexit, hholds]
    exact ⟨.inr rfl, nofun, nofun, fun _ => hmade, fun _ _ _ h => .inl (hmade.files _ _ _ h),
      fun _ _ _ h => .inl (hmade.at?_file h)⟩
  · obtain ⟨-, above, last, -, -, hpath, hgains⟩ := gains_of_write hwrite
    have hkept : ∀ {names name content}, names ≠ above ++ [last] →
        ((init fs path).fileSystem.root.at? names = some (.file name content) ↔
          (makeParent fs path).1.root.at? names = some (.file name content)) :=
      fun hne => Entry.at?_file_congr (hgains.root.elsewhere _ hne)
    rw [hexit, hholds]
    refine ⟨.inl rfl, nofun, fun _ => ⟨read_of_gains hpath hgains, ?_⟩, nofun,
      fun names name content hfile => ?_, fun names name content hfile => ?_⟩
    · exact (init_of_holds (holds_of_gains hpath hgains)).1
    · by_cases hne : names = above ++ [last]
      · exact .inr ⟨rfl, hne ▸ hpath⟩
      · exact .inl (hmade.files _ _ _ ((hkept hne).mp hfile))
    · by_cases hne : names = above ++ [last]
      · refine .inr ⟨rfl, hne ▸ hpath, ?_⟩
        by_contra hstrays
        have hbefore := holds_of_write_over hstrays hwrite (hne ▸ hpath) hfile
        exact Bool.false_ne_true (hholds.symm.trans hbefore)
      · exact .inl ((hkept hne).mpr (hmade.at?_file hfile))

def keptFiles : FileSystem where
  root := .directory "" [.file "notes.yaml" "mine".toUTF8]

/-- The path leads nowhere before the directory `new` is made, and to the file afterwards. -/
theorem straying_path_overwrites :
    keptFiles.root.at? ["notes.yaml"] = some (.file "notes.yaml" "mine".toUTF8) ∧
    keptFiles.holds "new/../notes.yaml" = false ∧
    (init keptFiles "new/../notes.yaml").exitCode = 0 ∧
    (init keptFiles "new/../notes.yaml").fileSystem.root.at? ["notes.yaml"] ≠
      some (.file "notes.yaml" "mine".toUTF8) := by
  refine ⟨rfl, by decide, by decide, fun hkept => ?_⟩
  have hlost : (init keptFiles "new/../notes.yaml").fileSystem.root.at? ["notes.yaml"] =
      some (.file "notes.yaml" Settings.template.toUTF8) := rfl
  rw [hlost, Option.some_inj, Entry.file.injEq] at hkept
  have htext : Settings.template = "mine" := String.toByteArray_inj.mp hkept.2
  exact absurd htext (by decide)

end CommandLine

end CodeSmell
