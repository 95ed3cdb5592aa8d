import CodeSmell.Loader
import CodeSmell.Proofs.FileSystem.WellFormed
import Mathlib.Data.List.Perm.Basic

/-!
# A walk over a directory

* `Entry.Reached` : a file that is kept, with everything that leads to it;
* `mem_filesBelow_iff` : these are the files that a walk comes to;
* `sorted_filesBelow_perm` : a walk in the order of names comes to the same files;
* `sorted_filesBelow_pairwise` : it comes to them in the order of the names that lead to them.
-/

namespace CodeSmell.Entry

variable {keep : List String → Entry → Bool}

/-! ## What a walk comes to -/

/-- There is a file below the entry `e`, which stands at `above`. The file is kept, and so is everything
between it and `e`. -/
structure Reached (keep : List String → Entry → Bool) (above : List String) (e : Entry)
    (below : List String) : Prop where
  isFile : ∃ name content, e.at? below = some (.file name content)
  kept : ∀ front c, front ≠ [] → front <+: below → e.at? front = some c →
    keep (above ++ front) c = true

theorem reached_file_iff {above below : List String} {name : String} {content : ByteArray} :
    Reached keep above (file name content) below ↔ below = [] := by
  constructor
  · rintro ⟨⟨name', content', hat⟩, -⟩
    exact (at?_file_eq_some_iff.mp hat).1
  · rintro rfl
    refine ⟨⟨name, content, rfl⟩, fun front c hne hstart _ => ?_⟩
    exact absurd (List.prefix_nil.mp hstart) hne

/-- What is reached below a directory is reached through an entry of it that is kept. -/
theorem reached_directory_iff {above below : List String} {d : String} {entries : List Entry}
    (h : (directory d entries).WellFormed) :
    Reached keep above (directory d entries) below ↔
      ∃ e ∈ entries, keep (above ++ [e.name]) e = true ∧
        ∃ rest, below = e.name :: rest ∧ Reached keep (above ++ [e.name]) e rest := by
  constructor
  · rintro ⟨⟨name, content, hat⟩, hkept⟩
    cases below with
    | nil => simp [at?] at hat
    | cons n rest =>
      obtain ⟨e, hchild, hrest⟩ := at?_cons_eq_some_iff.mp hat
      obtain ⟨hmem, rfl⟩ := (child?_eq_some_iff h).mp hchild
      refine ⟨e, hmem, ?_, rest, rfl, ⟨name, content, hrest⟩, ?_⟩
      · apply hkept [e.name] e
        · simp
        · simp
        · simp [at?, hchild]
      · intro front c hne hstart hc
        rw [List.append_assoc]
        apply hkept (e.name :: front) c
        · simp
        · simpa using hstart
        · exact at?_cons_eq_some_iff.mpr ⟨e, hchild, hc⟩
  · rintro ⟨e, hmem, hkeep, rest, rfl, ⟨name, content, hrest⟩, hkept⟩
    have hchild := (child?_eq_some_iff h).mpr ⟨hmem, rfl⟩
    refine ⟨⟨name, content, at?_cons_eq_some_iff.mpr ⟨e, hchild, hrest⟩⟩, ?_⟩
    intro front c hne hstart hc
    obtain rfl | ⟨front, rfl, hfront⟩ := List.prefix_cons_iff.mp hstart
    · exact absurd rfl hne
    · obtain ⟨e', hchild', hc⟩ := at?_cons_eq_some_iff.mp hc
      obtain rfl : e = e' := by simpa [hchild] using hchild'
      by_cases hnil : front = []
      · subst hnil
        obtain rfl : e = c := by simpa [at?] using hc
        exact hkeep
      · have hfile := hkept front c hnil hfront hc
        rwa [List.append_assoc] at hfile

theorem filesIn_eq (above : List String) (entries : List Entry) :
    filesIn keep above entries = entries.flatMap (files keep above) := by
  induction entries with
  | nil => rfl
  | cons e rest ih => rw [filesIn, ih, List.flatMap_cons]

/-- A walk over an entry comes to the files reached below it, if the entry itself is kept. -/
theorem mem_files_iff {e : Entry} (h : e.WellFormed) {above names : List String} :
    names ∈ e.files keep above ↔ keep (above ++ [e.name]) e = true ∧
      ∃ below, names = above ++ [e.name] ++ below ∧ Reached keep (above ++ [e.name]) e below := by
  induction h generalizing above with
  | file n content =>
    have hname : (file n content).name = n := rfl
    simp only [reached_file_iff, hname]
    rw [files]
    split
    case isTrue hkeep => simp [hkeep]
    case isFalse hkeep => simp [hkeep]
  | directory d entries distinct named within ih =>
    have h := WellFormed.directory d entries distinct named within
    simp only [reached_directory_iff h]
    have hname : (directory d entries).name = d := rfl
    rw [files, hname]
    split
    case isTrue hkeep =>
      simp only [filesIn_eq, List.mem_flatMap, hkeep, true_and]
      constructor
      · rintro ⟨e, hmem, hfound⟩
        obtain ⟨hkeep, rest, hnames, hreached⟩ := (ih e hmem).mp hfound
        exact ⟨e.name :: rest, by simpa using hnames, e, hmem, hkeep, rest, rfl, hreached⟩
      · rintro ⟨below, hnames, e, hmem, hkeep, rest, rfl, hreached⟩
        exact ⟨e, hmem, (ih e hmem).mpr ⟨hkeep, rest, by simpa using hnames, hreached⟩⟩
    case isFalse hkeep => simp [hkeep]

/-- A walk over what is below a directory comes to the files reached there. -/
theorem mem_filesBelow_iff {d : Entry} (h : d.WellFormed) (hd : d.isDirectory = true)
    {names : List String} : names ∈ d.filesBelow keep ↔ Reached keep [] d names := by
  cases d with
  | file name content => simp [isDirectory] at hd
  | directory d entries =>
    have hwithin : ∀ e ∈ entries, e.WellFormed := by
      cases h with
      | directory _ _ _ _ within => exact within
    rw [reached_directory_iff h, filesBelow, filesIn_eq, List.mem_flatMap]
    constructor
    · rintro ⟨e, hmem, hfound⟩
      obtain ⟨hkeep, rest, hnames, hreached⟩ := (mem_files_iff (hwithin e hmem)).mp hfound
      exact ⟨e, hmem, hkeep, rest, by simpa using hnames, hreached⟩
    · rintro ⟨e, hmem, hkeep, rest, hnames, hreached⟩
      refine ⟨e, hmem, (mem_files_iff (hwithin e hmem)).mpr ⟨hkeep, rest, ?_, hreached⟩⟩
      simpa using hnames

/-! ## A walk in the order of names -/

theorem sortedIn_eq (entries : List Entry) : sortedIn entries = entries.map sorted := by
  induction entries with
  | nil => rfl
  | cons e rest ih => rw [sortedIn, ih, List.map_cons]

@[simp]
theorem name_sorted (e : Entry) : e.sorted.name = e.name := by
  cases e with
  | file name content => rw [sorted]
  | directory d entries =>
    rw [sorted]
    rfl

@[simp]
theorem isDirectory_sorted (e : Entry) : e.sorted.isDirectory = e.isDirectory := by
  cases e with
  | file name content => rw [sorted]
  | directory d entries =>
    rw [sorted]
    rfl

def byName (entries : List Entry) : List Entry :=
  entries.mergeSort fun a b => a.name ≤ b.name

theorem sorted_directory (d : String) (entries : List Entry) :
    (directory d entries).sorted = directory d ((byName entries).map sorted) := by
  rw [sorted, sortedIn_eq, byName, List.map_mergeSort]
  intro a _ b _
  simp

theorem byName_perm (entries : List Entry) : (byName entries).Perm entries :=
  List.mergeSort_perm _ _

theorem byName_pairwise {entries : List Entry} (hdistinct : (entries.map name).Nodup) :
    (byName entries).Pairwise (·.name < ·.name) := by
  have hle : (byName entries).Pairwise (fun a b => a.name ≤ b.name) := by
    have htrans : ∀ a b c : Entry, decide (a.name ≤ b.name) = true →
        decide (b.name ≤ c.name) = true → decide (a.name ≤ c.name) = true := by
      intro a b c hab hbc
      exact decide_eq_true (String.le_trans (of_decide_eq_true hab) (of_decide_eq_true hbc))
    have htotal : ∀ a b : Entry, (decide (a.name ≤ b.name) || decide (b.name ≤ a.name)) = true := by
      intro a b
      simpa using String.le_total a.name b.name
    exact (List.pairwise_mergeSort htrans htotal entries).imp of_decide_eq_true
  have hne : (byName entries).Pairwise (fun a b => a.name ≠ b.name) := by
    have hnodup := ((byName_perm entries).map name).nodup_iff.mpr hdistinct
    exact List.pairwise_map.mp hnodup
  refine hle.imp₂ ?_ hne
  intro a b hab hne
  apply String.not_le.mp
  intro hba
  exact hne (String.le_antisymm hab hba)

theorem filesIn_sorted (above : List String) (entries : List Entry) :
    filesIn keep above ((byName entries).map sorted) =
      (byName entries).flatMap fun e => e.sorted.files keep above := by
  rw [filesIn_eq, List.flatMap_map]

section Order

variable (hkeep : ∀ names e, keep names (sorted e) = keep names e)
include hkeep

theorem sorted_files_perm {e : Entry} (h : e.WellFormed) (above : List String) :
    (e.sorted.files keep above).Perm (e.files keep above) := by
  induction h generalizing above with
  | file name content => rw [sorted]
  | directory d entries distinct named within ih =>
    have hsame := hkeep (above ++ [d]) (directory d entries)
    rw [sorted_directory] at hsame ⊢
    rw [files, files, hsame, filesIn_sorted, filesIn_eq]
    split
    · apply (byName_perm entries).flatMap
      intro e hmem
      exact ih e ((byName_perm entries).mem_iff.mp hmem) _
    · exact .refl []

theorem sorted_filesBelow_perm {d : Entry} (h : d.WellFormed) :
    (d.sorted.filesBelow keep).Perm (d.filesBelow keep) := by
  cases h with
  | file name content => rw [sorted]
  | directory d entries distinct named within =>
    rw [sorted_directory, filesBelow, filesBelow, filesIn_sorted, filesIn_eq]
    apply (byName_perm entries).flatMap
    intro e hmem
    exact sorted_files_perm hkeep (within e ((byName_perm entries).mem_iff.mp hmem)) _

/-- The names that lead to what a walk over an entry finds begin with those of the entry. -/
theorem exists_below_of_mem_sorted_files {e : Entry} (h : e.WellFormed) {above : List String}
    {names : List String} (hmem : names ∈ e.sorted.files keep above) :
    ∃ below, names = above ++ e.name :: below := by
  rw [(sorted_files_perm hkeep h above).mem_iff, mem_files_iff h] at hmem
  obtain ⟨-, below, hnames, -⟩ := hmem
  exact ⟨below, by simpa using hnames⟩

/-- Entries in the order of their names give files in the order of the names that lead to them, if
each of the entries does. -/
theorem byName_flatMap_pairwise {entries : List Entry} (hdistinct : (entries.map name).Nodup)
    (hwithin : ∀ e ∈ entries, e.WellFormed) (above : List String)
    (heach : ∀ e ∈ entries, (e.sorted.files keep above).Pairwise (· < ·)) :
    ((byName entries).flatMap fun e => e.sorted.files keep above).Pairwise (· < ·) := by
  have hmem : ∀ e ∈ byName entries, e ∈ entries := fun e => (byName_perm entries).mem_iff.mp
  rw [List.pairwise_flatMap]
  refine ⟨fun e he => heach e (hmem e he), ?_⟩
  apply (byName_pairwise hdistinct).imp_of_mem
  intro a b ha hb hab x hx y hy
  obtain ⟨below, hx⟩ := exists_below_of_mem_sorted_files hkeep (hwithin a (hmem a ha)) hx
  obtain ⟨below', hy⟩ := exists_below_of_mem_sorted_files hkeep (hwithin b (hmem b hb)) hy
  rw [hx, hy]
  apply List.append_left_lt
  exact List.cons_lt_cons_iff.mpr (.inl hab)

theorem sorted_files_pairwise {e : Entry} (h : e.WellFormed) (above : List String) :
    (e.sorted.files keep above).Pairwise (· < ·) := by
  induction h generalizing above with
  | file name content =>
    rw [sorted, files]
    split <;> simp
  | directory d entries distinct named within ih =>
    rw [sorted_directory, files, filesIn_sorted]
    split
    · exact byName_flatMap_pairwise hkeep distinct within _ fun e he => ih e he _
    · exact .nil

/-- A walk in the order of names comes to the files in the order of the names that lead to them. -/
theorem sorted_filesBelow_pairwise {d : Entry} (h : d.WellFormed) :
    (d.sorted.filesBelow keep).Pairwise (· < ·) := by
  cases h with
  | file name content =>
    rw [sorted]
    exact .nil
  | directory d entries distinct named within =>
    rw [sorted_directory, filesBelow, filesIn_sorted]
    exact byName_flatMap_pairwise hkeep distinct within _
      fun e he => sorted_files_pairwise hkeep (within e he) _

end Order

end CodeSmell.Entry
