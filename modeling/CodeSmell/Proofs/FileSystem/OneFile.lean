import CodeSmell.Proofs.FileSystem.Placing

/-!
# File systems that differ in one file

* `FileSystem.ChangesFile` : a file is written, new or over another, or removed;
* `FileSystem.DiffersAt` : two file systems have the same files at all names but some, and the paths of
  directories lead where they did; so it is when a file is changed (`ChangesFile.differsAt`).
-/

namespace CodeSmell

namespace FileSystem

variable {fs fs' : FileSystem} {names : List String}

/-! ## Changing one file -/

/-- A file is written at some names, new or over another, or is removed from there. Directories may be
made before that. -/
inductive ChangesFile : FileSystem → FileSystem → List String → Prop
  | written {fs fs' : FileSystem} {path : String} {content : ByteArray} {names : List String}
      (h : fs.write path content = .ok fs') (leads : fs'.locate path = .ok names) :
      ChangesFile fs fs' names
  | removed {fs fs' : FileSystem} {path : String} {names : List String}
      (isFile : fs.isFile path = true) (h : fs.remove path = .ok fs')
      (leads : fs.locate path = .ok names) : ChangesFile fs fs' names
  | within {fs made fs' : FileSystem} {path : String} {names : List String}
      (h : fs.makeDirectory path = .ok made) (rest : ChangesFile made fs' names) :
      ChangesFile fs fs' names

/-- The second file system has the same files as the first at all names but some, and a path that
leads to a directory in the first leads to it in the second. -/
structure DiffersAt (names : List String) (fs fs' : FileSystem) : Prop where
  wellFormed : fs'.root.WellFormed
  files : ∀ other, other ≠ names → ∀ name content,
    fs'.root.at? other = some (.file name content) ↔ fs.root.at? other = some (.file name content)
  directories : ∀ above, fs.hasDirectory above = true → fs'.hasDirectory above = true
  leads : ∀ path above, fs.locate path = .ok above → fs.hasDirectory above = true →
    fs'.locate path = .ok above

theorem DiffersAt.trans {fs'' : FileSystem} (h : DiffersAt names fs fs')
    (h' : DiffersAt names fs' fs'') : DiffersAt names fs fs'' where
  wellFormed := h'.wellFormed
  files other hother name content :=
    (h'.files other hother name content).trans (h.files other hother name content)
  directories above hd := h'.directories above (h.directories above hd)
  leads path above hpath hd :=
    h'.leads path above (h.leads path above hpath hd) (h.directories above hd)

theorem differsAt_of_write {path : String} {content : ByteArray} (hwell : fs.root.WellFormed)
    (h : fs.write path content = .ok fs') (hpath : fs'.locate path = .ok names) :
    DiffersAt names fs fs' := by
  obtain ⟨before, above, name, -, -, hleads, hgains⟩ := gains_of_write h
  obtain rfl := Except.ok.inj (hleads.symm.trans hpath)
  have hcovers := hgains.covers
  refine ⟨wellFormed_of_write h hwell, fun other hother name content => ?_, hcovers.directories,
    fun path above hpath _ => hcovers.locate_ok hpath⟩
  exact Entry.at?_file_congr (hgains.root.elsewhere other hother)

theorem differsAt_of_remove {path : String} (hwell : fs.root.WellFormed)
    (hroot : fs.root.isDirectory = true) (hfile : fs.isFile path = true)
    (h : fs.remove path = .ok fs') (hpath : fs.locate path = .ok names) : DiffersAt names fs fs' := by
  obtain ⟨content, hread⟩ := isFile_iff.mp hfile
  obtain ⟨there, name, hthere, hat⟩ := read_eq_ok_iff.mp hread
  obtain rfl := Except.ok.inj (hpath.symm.trans hthere)
  obtain rfl := Except.ok.inj (h.symm.trans (remove_eq_without hpath))
  have hlacks := lacksFile_without hwell hroot hat
  refine ⟨hlacks.wellFormed', fun other hother name content => ?_,
    fun above hd => (hlacks.hasDirectory_eq above).trans hd, fun path above hpath hd => ?_⟩
  · exact Entry.at?_file_congr (hlacks.root.kept other hother)
  · exact hlacks.locate_ok_iff.mpr ⟨hpath, (hlacks.ne_of_hasDirectory hd).1⟩

theorem differsAt_of_makeDirectory {path : String} (hwell : fs.root.WellFormed)
    (h : fs.makeDirectory path = .ok fs') (names : List String) : DiffersAt names fs fs' := by
  obtain ⟨_, _, _, hgains⟩ := gains_of_makeDirectory h
  have hcovers := hgains.covers
  exact ⟨wellFormed_of_makeDirectory h hwell, fun _ _ _ _ => at?_file_iff_of_makeDirectory h,
    hcovers.directories, fun path above hpath _ => hcovers.locate_ok hpath⟩

namespace ChangesFile

theorem differsAt (h : ChangesFile fs fs' names) (hwell : fs.root.WellFormed)
    (hroot : fs.hasDirectory [] = true) : DiffersAt names fs fs' := by
  induction h with
  | written hwrite leads => exact differsAt_of_write hwell hwrite leads
  | removed isFile hremove leads =>
    exact differsAt_of_remove hwell (root_isDirectory hroot) isFile hremove leads
  | @within fs made fs' path names hmake _ ih =>
    -- no file is made with the directory, so that the names can be those of the file to come
    have hmade := differsAt_of_makeDirectory hwell hmake names
    exact hmade.trans (ih hmade.wellFormed (hmade.directories [] hroot))

theorem isName (h : ChangesFile fs fs' names) (hwell : fs.root.WellFormed) :
    ∀ name ∈ names, Path.IsName name := by
  induction h with
  | written hwrite leads =>
    obtain ⟨before, above, name, -, -, hleads, hgains⟩ := gains_of_write hwrite
    obtain rfl := Except.ok.inj (hleads.symm.trans leads)
    obtain ⟨e, hat, -⟩ := Option.map_eq_some_iff.mp hgains.root.there
    exact (wellFormed_of_write hwrite hwell).isName_of_at? hat
  | removed isFile hremove leads =>
    obtain ⟨content, hread⟩ := isFile_iff.mp isFile
    obtain ⟨there, name, hthere, hat⟩ := read_eq_ok_iff.mp hread
    obtain rfl := Except.ok.inj (leads.symm.trans hthere)
    exact hwell.isName_of_at? hat
  | within hmake _ ih => exact ih (wellFormed_of_makeDirectory hmake hwell)

end ChangesFile

end FileSystem

end CodeSmell
