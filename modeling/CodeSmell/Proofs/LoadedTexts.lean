import CodeSmell.Proofs.FileSystem.Removal
import CodeSmell.Proofs.Loader
import Mathlib.Data.List.Sort

/-!
# The texts that are loaded from a path

* `Source.Spells` : the text that a content stands for;
* `Loader.textsAt` : the texts that are loaded from a path, with the names that lead to them; the
  sources at the path are made of these (`path_eq`);
* `Loader.ComesTo` : a file is loaded with a text, from its own path or from that of a directory above
  it; `mem_textsAt_iff` says that these are the texts, `textsAt_pairwise` that they come in the order of
  the names;
* `LacksFile.textsAt_eq` : without a file, all other texts are loaded as they were.
-/

namespace CodeSmell

/-- A content is a text in UTF-8, behind a byte order mark or, if the text does not begin with one
itself, behind none. -/
def Source.Spells (content : ByteArray) (text : String) : Prop :=
  content = ("\ufeff" ++ text).toUTF8 ∨ content = text.toUTF8 ∧ text.toList.head? ≠ some '\ufeff'

theorem Source.spells_iff {content : ByteArray} {text : String} :
    Source.Spells content text ↔
      (String.fromUTF8? content).map Source.withoutMark = some text :=
  Source.text_eq_iff.symm

namespace Loader

/-- The texts at a path or below it, with the names that lead to them. -/
def textsFrom (l : Loader) (fs : FileSystem) (path : String) : List (List String × String) :=
  match fs.locate path with
  | .error _ => []
  | .ok above =>
    match fs.root.at? above with
    | none => []
    | some (.file name content) => ((Entry.file name content).text?.map (above, ·)).toList
    | some d => (l.textsBelow above d).map fun (names, text) => (above ++ names, text)

/-- The texts that are loaded from a path, with the names that lead to them: those in files whose paths
the system takes. -/
def textsAt (l : Loader) (fs : FileSystem) (path : String) : List (List String × String) :=
  (l.textsFrom fs path).filter fun (names, _) => FileSystem.Admits (Path.ofNames names)

/-- A loader comes to the file at some names, and takes it for a source with some text. The system
takes the path of the file, by which it is read. -/
inductive ComesTo (l : Loader) (fs : FileSystem) (path : String) (names : List String)
    (text : String) : Prop
  /-- A file is loaded from its own path, whatever it is called. -/
  | directly (located : fs.locate path = .ok names) (name : String) (content : ByteArray)
      (isFile : fs.root.at? names = some (.file name content))
      (spells : Source.Spells content text) (admits : FileSystem.Admits (Path.ofNames names))
  /-- From the path of a directory the files below it are loaded that are not left out. -/
  | within (above below : List String) (d : Entry) (located : fs.locate path = .ok above)
      (stands : fs.root.at? above = some d) (isDirectory : d.isDirectory = true)
      (whole : names = above ++ below) (takes : l.Takes above d below text)
      (admits : FileSystem.Admits (Path.ofNames names))

variable {l : Loader} {fs fs' : FileSystem} {path : String}

/-! ## The sources at a path -/

theorem textsFrom_file {above : List String} {name : String} {content : ByteArray}
    (hpath : fs.locate path = .ok above) (hat : fs.root.at? above = some (.file name content)) :
    l.textsFrom fs path = ((Entry.file name content).text?.map (above, ·)).toList := by
  rw [textsFrom, hpath]
  dsimp only
  rw [hat]

theorem textsFrom_directory {above : List String} {d : Entry} (hpath : fs.locate path = .ok above)
    (hat : fs.root.at? above = some d) (hd : d.isDirectory = true) :
    l.textsFrom fs path = (l.textsBelow above d).map fun (names, text) => (above ++ names, text) := by
  cases d with
  | file name content => cases hd
  | directory name entries =>
    rw [textsFrom, hpath]
    dsimp only
    rw [hat]

theorem path_eq (hwell : fs.root.WellFormed) :
    l.path fs path = (l.textsAt fs path).map fun (names, text) =>
      Source.read l.grammar (Path.ofNames names) text := by
  rw [Loader.path, textsAt]
  cases hpath : fs.locate path with
  | error f => simp [directory, textsFrom, FileSystem.isFile, FileSystem.entry?, hpath]
  | ok above =>
    cases hat : fs.root.at? above with
    | none => simp [directory, textsFrom, FileSystem.isFile, FileSystem.entry?, hpath, hat]
    | some e =>
      have hentry := FileSystem.entry_of_locate hpath hat
      cases e with
      | file name content =>
        have hne := FileSystem.ne_nil_of_locate hpath hat
        have hisFile : fs.isFile path = true := FileSystem.isFile_of_locate hpath hat
        rw [if_pos hisFile, FileSystem.absolute_of_locate hpath, file?_ofNames hne hwell hat rfl,
          directory, hentry, textsFrom_file hpath hat, List.append_nil]
        cases (Entry.file name content).text? with
        | none => split <;> rfl
        | some text =>
          split
          next hadmits => simp [hadmits]
          next hrefused => simp [hrefused]
      | directory d entries =>
        have hisFile : fs.isFile path = false := FileSystem.isFile_of_locate hpath hat
        rw [if_neg (Bool.eq_false_iff.mp hisFile), directory_eq hwell hpath hat rfl,
          textsFrom_directory hpath hat rfl, List.filter_map, List.map_map]
        rfl

theorem mem_textsAt_iff (hwell : fs.root.WellFormed) {names : List String} {text : String} :
    (names, text) ∈ l.textsAt fs path ↔ l.ComesTo fs path names text := by
  rw [textsAt, List.mem_filter, decide_eq_true_eq]
  constructor
  · rintro ⟨hmem, hadmits⟩
    unfold textsFrom at hmem
    split at hmem
    · cases hmem
    · next above hpath =>
      split at hmem
      · cases hmem
      · next name content hat =>
        rw [Option.mem_toList, Option.map_eq_some_iff] at hmem
        obtain ⟨_, htext, heq⟩ := hmem
        cases heq
        exact .directly hpath name content hat (Source.spells_iff.mpr htext) hadmits
      · next d hfile hat =>
        have hd : d.isDirectory = true := by
          cases d with
          | file name content => exact absurd rfl (hfile name content)
          | directory name entries => rfl
        obtain ⟨⟨below, _⟩, hbelow, heq⟩ := List.mem_map.mp hmem
        cases heq
        have htakes := (mem_textsBelow_iff (hwell.isName_of_at? hat) (hwell.of_at? hat) hd).mp hbelow
        exact .within above below d hpath hat hd rfl htakes hadmits
  · intro h
    cases h with
    | directly located name content isFile spells admits =>
      refine ⟨?_, admits⟩
      rw [textsFrom_file located isFile, Option.mem_toList, Option.map_eq_some_iff]
      exact ⟨text, Source.spells_iff.mp spells, rfl⟩
    | within above below d located stands isDirectory whole takes admits =>
      refine ⟨?_, admits⟩
      have hbelow := (mem_textsBelow_iff (hwell.isName_of_at? stands) (hwell.of_at? stands)
        isDirectory).mpr takes
      rw [textsFrom_directory located stands isDirectory, whole]
      exact List.mem_map_of_mem hbelow

theorem textsAt_pairwise (hwell : fs.root.WellFormed) :
    (l.textsAt fs path).Pairwise (·.1 < ·.1) := by
  refine .filter _ ?_
  unfold textsFrom
  split
  · exact .nil
  · next above hpath =>
    split
    · exact .nil
    · next name content hat =>
      cases (Entry.file name content).text? with
      | none => exact .nil
      | some text => exact List.pairwise_singleton _ _
    · next d hfile hat =>
      rw [List.pairwise_map]
      refine (textsBelow_pairwise (hwell.of_at? hat)).imp fun hlt => ?_
      exact List.append_left_lt hlt

/-- Texts in the order of their names are the same if they have the same members. -/
theorem texts_ext {texts texts' : List (List String × String)} (h : texts.Pairwise (·.1 < ·.1))
    (h' : texts'.Pairwise (·.1 < ·.1)) (hmem : ∀ found, found ∈ texts ↔ found ∈ texts') :
    texts = texts' := by
  have hasymm : Std.Antisymm fun a b : List String × String => a.1 < b.1 :=
    ⟨fun a _ hab hba => absurd (List.lt_trans hab hba) (List.lt_irrefl a.1)⟩
  have hirrefl : Std.Irrefl fun a b : List String × String => a.1 < b.1 :=
    ⟨fun a => List.lt_irrefl a.1⟩
  exact h.eq_of_mem_iff h' fun found => hmem found

/-! ## Without a file -/

theorem takes_iff_of_lacks {gone : List String → Prop} {d d' : Entry} (h : Entry.Lacks gone d d')
    {above names : List String} {text : String} :
    l.Takes above d' names text ↔ l.Takes above d names text ∧ ¬ gone names := by
  constructor
  · rintro ⟨⟨name, content, hat, hspells⟩, hknown, hentered, hadmitted⟩
    obtain ⟨hbefore, hkept⟩ := h.at?_file_iff.mp hat
    exact ⟨⟨⟨name, content, hbefore, hspells⟩, hknown, hentered, hadmitted⟩, hkept⟩
  · rintro ⟨⟨⟨name, content, hat, hspells⟩, hknown, hentered, hadmitted⟩, hkept⟩
    exact ⟨⟨name, content, h.at?_file_iff.mpr ⟨hat, hkept⟩, hspells⟩, hknown, hentered, hadmitted⟩

end Loader

namespace FileSystem.LacksFile

variable {l : Loader} {fs fs' : FileSystem} {path : String} {names : List String}
  (h : fs.LacksFile fs' names)
include h

/-- Without a file, a loader comes to all other files that it came to. -/
theorem comesTo_iff {other : List String} {text : String} :
    l.ComesTo fs' path other text ↔ l.ComesTo fs path other text ∧ other ≠ names := by
  constructor
  · intro hcomes
    cases hcomes with
    | directly located name content isFile spells admits =>
      obtain ⟨hfile, hne⟩ := h.root.at?_file_iff.mp isFile
      exact ⟨.directly (h.locate_ok_iff.mp located).1 name content hfile spells admits, hne⟩
    | within above below d' located stands isDirectory whole takes admits =>
      have hthere : fs.hasDirectory above = true := by
        rw [← h.hasDirectory_eq]
        exact hasDirectory_iff.mpr ⟨d', stands, isDirectory⟩
      obtain ⟨d, hat, hd⟩ := hasDirectory_iff.mp hthere
      obtain ⟨htakes, hne⟩ := (Loader.takes_iff_of_lacks (h.root.of_at? hat stands)).mp takes
      rw [← whole] at hne
      exact ⟨.within above below d (h.locate_ok_iff.mp located).1 hat hd whole htakes admits, hne⟩
  · rintro ⟨hcomes, hne⟩
    cases hcomes with
    | directly located name content isFile spells admits =>
      exact .directly (h.locate_ok_iff.mpr ⟨located, hne⟩) name content
        (h.root.at?_file_iff.mpr ⟨isFile, hne⟩) spells admits
    | within above below d located stands isDirectory whole takes admits =>
      have hthere : fs.hasDirectory above = true := hasDirectory_iff.mpr ⟨d, stands, isDirectory⟩
      have habove := (h.ne_of_hasDirectory hthere).1
      rw [← h.hasDirectory_eq] at hthere
      obtain ⟨d', hat, hd⟩ := hasDirectory_iff.mp hthere
      rw [whole] at hne
      have htakes := (Loader.takes_iff_of_lacks (h.root.of_at? stands hat)).mpr ⟨takes, hne⟩
      exact .within above below d' (h.locate_ok_iff.mpr ⟨located, habove⟩) hat hd whole htakes admits

/-- Without a file, all other texts are loaded as they were. -/
theorem textsAt_eq : l.textsAt fs' path = (l.textsAt fs path).filter (·.1 != names) := by
  refine Loader.texts_ext (Loader.textsAt_pairwise h.wellFormed')
    ((Loader.textsAt_pairwise h.wellFormed).filter _) fun (other, text) => ?_
  rw [List.mem_filter, Loader.mem_textsAt_iff h.wellFormed', Loader.mem_textsAt_iff h.wellFormed,
    h.comesTo_iff, bne_iff_ne]

end FileSystem.LacksFile

end CodeSmell
