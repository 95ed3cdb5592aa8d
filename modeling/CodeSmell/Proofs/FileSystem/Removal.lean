import CodeSmell.FileSystem.Change
import CodeSmell.Proofs.FileSystem.Alter
import CodeSmell.Proofs.FileSystem.Locate

/-!
# A file system without one of its files

* `Entry.Lacks` : an entry that shows the same as another at all names but some, and has nothing
  there; so it is when a file is taken out (`lacks_without`), and all stays well formed;
* `FileSystem.LacksFile` : the second of two file systems lacks a file of the first, as it does when
  the file is removed (`remove_eq_without`, `lacksFile_without`);
* `LacksFile.locate_ok_iff` : all paths lead where they did, save those that led to the file.
-/

namespace CodeSmell.Entry

/-! ## Taking out what stands below some names -/

def without (names : List String) (e : Entry) : Entry :=
  e.alter (fun _ => none) names

/-- What becomes of the entry that the first of some names stands for when what stands below all
of them is taken out, by the names behind the first. -/
def cut (rest : List String) (e : Option Entry) : Option Entry :=
  if rest = [] then none else e.map (without rest)

theorem without_cons (name : String) (rest : List String) (d : String) (entries : List Entry) :
    (directory d entries).without (name :: rest) = directory d (alterIn name (cut rest) entries) := by
  cases rest with
  | nil => rfl
  | cons next rest => rfl

@[simp]
theorem label_without (names : List String) (e : Entry) : (e.without names).label = e.label := by
  cases names with
  | nil => cases e <;> rfl
  | cons name rest =>
    cases e with
    | file n content => cases rest <;> rfl
    | directory d entries => rw [without_cons]; rfl

@[simp]
theorem name_without (names : List String) (e : Entry) : (e.without names).name = e.name := by
  have hlabel : ∀ e' : Entry, e'.name = e'.label.1 := by
    intro e'
    cases e' <;> rfl
  rw [hlabel, label_without, ← hlabel]

theorem cut_none (rest : List String) : cut rest none = none := by
  simp [cut]

theorem cut_some_iff {rest : List String} {e c : Entry} :
    cut rest (some e) = some c ↔ rest ≠ [] ∧ e.without rest = c := by
  simp [cut]

theorem name_eq_of_cut {rest : List String} (e c : Entry) (h : cut rest (some e) = some c) :
    c.name = e.name := by
  obtain ⟨-, rfl⟩ := cut_some_iff.mp h
  exact name_without rest e

theorem WellFormed.without {e : Entry} (h : e.WellFormed) (names : List String) :
    (e.without names).WellFormed := by
  induction names generalizing e with
  | nil => cases e <;> exact h
  | cons name rest ih =>
    cases h with
    | file n content => cases rest <;> exact .file n content
    | directory d entries distinct named within =>
      rw [without_cons]
      refine (WellFormed.directory d entries distinct named within).changeIn fun o c ho hc => ?_
      cases o with
      | none =>
        rw [cut_none] at hc
        cases hc
      | some e =>
        obtain ⟨hmem, rfl⟩ := ho e rfl
        refine ⟨name_eq_of_cut e c hc, named e hmem, ?_⟩
        obtain ⟨-, rfl⟩ := cut_some_iff.mp hc
        exact ih (within e hmem)

/-- The entry `e'` shows the same as `e` at all names but some, and has nothing there. -/
structure Lacks (gone : List String → Prop) (e e' : Entry) : Prop where
  kept : ∀ names, ¬ gone names → (e'.at? names).map label = (e.at? names).map label
  lost : ∀ names, gone names → e'.at? names = none

theorem Lacks.at?_file_iff {gone : List String → Prop} {e e' : Entry} (h : Lacks gone e e')
    {names : List String} {name : String} {content : ByteArray} :
    e'.at? names = some (file name content) ↔
      e.at? names = some (file name content) ∧ ¬ gone names := by
  by_cases hgone : gone names
  · simp [h.lost names hgone, hgone]
  · rw [at?_file_congr (h.kept names hgone), and_iff_left hgone]

/-- What stands below some names lacks what is gone below them. -/
theorem Lacks.of_at? {gone : List String → Prop} {e e' c c' : Entry} {above : List String}
    (h : Lacks gone e e') (hat : e.at? above = some c) (hat' : e'.at? above = some c') :
    Lacks (fun names => gone (above ++ names)) c c' := by
  have hbelow (names : List String) : e.at? (above ++ names) = c.at? names := by
    rw [at?_append, hat, Option.bind_some]
  have hbelow' (names : List String) : e'.at? (above ++ names) = c'.at? names := by
    rw [at?_append, hat', Option.bind_some]
  refine ⟨fun names hkept => ?_, fun names hlost => ?_⟩
  · rw [← hbelow, ← hbelow', h.kept _ hkept]
  · rw [← hbelow', h.lost _ hlost]

/-- Without a file, an entry lacks nothing but the file. -/
theorem lacks_without {e : Entry} (h : e.WellFormed) {names : List String} (hne : names ≠ [])
    {name : String} {content : ByteArray} (hfile : e.at? names = some (file name content)) :
    Lacks (· = names) e (e.without names) := by
  -- both fields by one induction, on the names that lead to the file
  suffices hat : ∀ other, ((e.without names).at? other).map label =
      if other = names then none else (e.at? other).map label by
    refine ⟨fun other hother => ?_, fun other hother => ?_⟩
    · rw [hat, if_neg hother]
    · simpa [hother] using hat other
  induction names generalizing e with
  | nil => exact absurd rfl hne
  | cons n rest ih =>
    cases h with
    | file n content => simp [at?, child?] at hfile
    | directory d entries distinct named within =>
      obtain ⟨c, hchild, hrest⟩ := at?_cons_eq_some_iff.mp hfile
      have hc : c.WellFormed := (WellFormed.directory d entries distinct named within).of_child? hchild |>.1
      have hname : ∀ c', cut rest ((directory d entries).child? n) = some c' → c'.name = n := by
        intro c' hcut
        rw [hchild] at hcut
        rw [name_eq_of_cut c c' hcut, name_of_child? hchild]
      intro other
      cases other with
      | nil => simp [at?]
      | cons o more =>
        rw [without_cons, at?, at?]
        by_cases ho : o = n
        · subst ho
          by_cases hend : rest = []
          · subst hend
            obtain rfl : c = file name content := by simpa [at?] using hrest
            rw [child?_alterIn_gone distinct rfl, hchild]
            cases more <;> simp [at?, child?]
          · have hcut : cut rest ((directory d entries).child? o) = some (c.without rest) := by
              rw [hchild]
              exact cut_some_iff.mpr ⟨hend, rfl⟩
            rw [child?_alterIn_same hcut (hname _ hcut), hchild, Option.bind_some, Option.bind_some,
              ih hc hend hrest more]
            simp
        · rw [child?_alterIn_other ho hname]
          simp [ho]

end CodeSmell.Entry

namespace CodeSmell.FileSystem

/-! ## Removing a file -/

/-- The file system `fs'` lacks the file that some names lead to in `fs`, and nothing else. -/
structure LacksFile (fs fs' : FileSystem) (names : List String) : Prop where
  working : fs'.working = fs.working
  isFile : ∃ name content, fs.root.at? names = some (.file name content)
  wellFormed : fs.root.WellFormed
  wellFormed' : fs'.root.WellFormed
  root : Entry.Lacks (· = names) fs.root fs'.root

def without (fs : FileSystem) (names : List String) : FileSystem :=
  { fs with root := fs.root.without names }

theorem remove_eq_without {fs : FileSystem} {path : String} {names : List String}
    (h : fs.locate path = .ok names) : fs.remove path = .ok (fs.without names) := by
  rw [remove, h]
  rfl

theorem lacksFile_without {fs : FileSystem} (h : fs.root.WellFormed)
    (hd : fs.root.isDirectory = true) {names : List String} {name : String} {content : ByteArray}
    (hfile : fs.root.at? names = some (.file name content)) :
    fs.LacksFile (fs.without names) names := by
  have hne : names ≠ [] := by
    rintro rfl
    have hroot : fs.root = .file name content := by simpa [Entry.at?] using hfile
    rw [hroot] at hd
    cases hd
  exact ⟨rfl, ⟨name, content, hfile⟩, h, h.without names, Entry.lacks_without h hne hfile⟩

namespace LacksFile

variable {fs fs' : FileSystem} {names : List String} (h : fs.LacksFile fs' names)
include h

theorem isSome_at?_iff {other : List String} :
    (fs'.root.at? other).isSome ↔ (fs.root.at? other).isSome ∧ other ≠ names := by
  by_cases hother : other = names
  · rw [h.root.lost other hother]
    simp [hother]
  · have hlabel := congrArg Option.isSome (h.root.kept other hother)
    simp only [Option.isSome_map] at hlabel
    simp [hlabel, hother]

theorem hasDirectory_eq (here : List String) : fs'.hasDirectory here = fs.hasDirectory here := by
  unfold hasDirectory
  by_cases hgone : here = names
  · obtain ⟨name, content, hfile⟩ := h.isFile
    rw [h.root.lost here hgone, hgone, hfile]
    rfl
  · have hlabel := h.root.kept here hgone
    cases hat : fs.root.at? here with
    | none =>
      rw [hat, Option.map_none, Option.map_eq_none_iff] at hlabel
      rw [hlabel]
    | some e =>
      rw [hat, Option.map_some, Option.map_eq_some_iff] at hlabel
      obtain ⟨e', hat', hsame⟩ := hlabel
      rw [hat']
      exact Entry.isDirectory_eq_of_label hsame

/-- Neither a directory nor the one above it is the file. -/
theorem ne_of_hasDirectory {here : List String} (hhere : fs.hasDirectory here = true) :
    here ≠ names ∧ here.dropLast ≠ names := by
  obtain ⟨name, content, hfile⟩ := h.isFile
  have hne : here ≠ names := by
    rintro rfl
    simp [hasDirectory, hfile, Entry.isDirectory] at hhere
  refine ⟨hne, ?_⟩
  rintro rfl
  rcases List.eq_nil_or_concat' here with rfl | ⟨init, last, rfl⟩
  · exact hne rfl
  · rw [List.dropLast_concat] at hfile
    simp [hasDirectory, Entry.at?_append, hfile, Entry.at?, Entry.child?] at hhere

/-- A step leads where it did, unless that is the file. -/
theorem step_ok_iff {here there : List String} {segment : String} :
    fs'.step here segment = .ok there ↔ fs.step here segment = .ok there ∧ there ≠ names := by
  rw [step_eq_ok_iff, step_eq_ok_iff, h.hasDirectory_eq, and_assoc]
  refine and_congr_right fun hhere => ?_
  obtain ⟨hself, habove⟩ := h.ne_of_hasDirectory hhere
  split
  · constructor
    · rintro rfl
      exact ⟨rfl, hself⟩
    · exact And.left
  · split
    · constructor
      · rintro rfl
        exact ⟨rfl, habove⟩
      · exact And.left
    · rw [h.isSome_at?_iff, and_assoc, and_assoc]

/-- Some steps lead where they did, unless that is the file. -/
theorem foldlM_step_ok_iff {segments : List String} (hne : segments ≠ [])
    {here there : List String} :
    segments.foldlM fs'.step here = .ok there ↔
      segments.foldlM fs.step here = .ok there ∧ there ≠ names := by
  induction segments generalizing here with
  | nil => exact absurd rfl hne
  | cons segment rest ih =>
    simp only [foldlM_step_cons_eq_ok_iff, h.step_ok_iff]
    by_cases hend : rest = []
    · subst hend
      simp only [List.foldlM_nil, pure, Except.pure, Except.ok.injEq]
      constructor
      · rintro ⟨next, ⟨hstep, hnext⟩, rfl⟩
        exact ⟨⟨next, hstep, rfl⟩, hnext⟩
      · rintro ⟨⟨next, hstep, rfl⟩, hnext⟩
        exact ⟨next, ⟨hstep, hnext⟩, rfl⟩
    · simp only [ih hend]
      constructor
      · rintro ⟨next, ⟨hstep, -⟩, hrest, hthere⟩
        exact ⟨⟨next, hstep, hrest⟩, hthere⟩
      · rintro ⟨⟨next, hstep, hrest⟩, hthere⟩
        refine ⟨next, ⟨hstep, ?_⟩, hrest, hthere⟩
        -- from the file no further step can be taken
        rintro rfl
        obtain ⟨segment', rest', rfl⟩ := List.exists_cons_of_ne_nil hend
        obtain ⟨next', hstep', -⟩ := foldlM_step_cons_eq_ok_iff.mp hrest
        exact (h.ne_of_hasDirectory (step_eq_ok_iff.mp hstep').1).1 rfl

theorem resolve_ok_iff {path : String} {there : List String} :
    fs'.resolve path = .ok there ↔ fs.resolve path = .ok there ∧ there ≠ names := by
  have hstart : fs'.start path = fs.start path := by
    unfold start
    rw [h.working]
  rw [resolve_eq_ok_iff, resolve_eq_ok_iff, hstart, h.foldlM_step_ok_iff (Path.segments_ne_nil path),
    and_assoc, and_assoc]

/-- A path leads where it did, unless it led to the file. -/
theorem locate_ok_iff {path : String} {there : List String} :
    fs'.locate path = .ok there ↔ fs.locate path = .ok there ∧ there ≠ names := by
  rw [locate_eq_ok_iff, locate_eq_ok_iff, h.resolve_ok_iff, and_assoc]

end LacksFile

end CodeSmell.FileSystem
