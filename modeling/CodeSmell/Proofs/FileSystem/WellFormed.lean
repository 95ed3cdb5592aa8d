import CodeSmell.FileSystem.Basic
import CodeSmell.Proofs.FileSystem.Names
import Mathlib.Data.List.Nodup

/-!
# What stands in a file system

* `Entry.WellFormed` : the entries of a directory can be told apart by their names;
* `child?_eq_some_iff` : the entry of some name is the one that is called so;
* `WellFormed.of_at?`, `isName_of_at?`, `name_of_at?` : what stands below some names is well formed,
  these are names, and the last of them is its own;
* `at?_append`, `isDirectory_of_at?` : what stands below a directory stands below it name by name, and
  below nothing else.
-/

namespace CodeSmell.Entry

/-- What a file system promises of an entry and of all that is below it. -/
inductive WellFormed : Entry → Prop where
  | file (name : String) (content : ByteArray) : WellFormed (file name content)
  | directory (name : String) (entries : List Entry)
      (distinct : (entries.map Entry.name).Nodup)
      (named : ∀ e ∈ entries, Path.IsName e.name)
      (within : ∀ e ∈ entries, WellFormed e) : WellFormed (directory name entries)

theorem WellFormed.name_injective {d : String} {entries : List Entry}
    (h : (Entry.directory d entries).WellFormed) {a b : Entry} (ha : a ∈ entries) (hb : b ∈ entries)
    (hname : a.name = b.name) : a = b := by
  cases h with
  | directory _ _ distinct _ _ => exact List.inj_on_of_nodup_map distinct ha hb hname

/-- The entry of some name in a directory is the one that is called so. -/
theorem child?_eq_some_iff {d : String} {entries : List Entry}
    (h : (directory d entries).WellFormed) {name : String} {e : Entry} :
    (directory d entries).child? name = some e ↔ e ∈ entries ∧ e.name = name := by
  rw [child?]
  constructor
  · intro hfound
    have hname := List.find?_some hfound
    exact ⟨List.mem_of_find?_eq_some hfound, by simpa using hname⟩
  · rintro ⟨hmem, rfl⟩
    have hsome : (entries.find? (·.name == e.name)).isSome := by
      rw [List.find?_isSome]
      exact ⟨e, hmem, beq_self_eq_true _⟩
    obtain ⟨e', hfound⟩ := Option.isSome_iff_exists.mp hsome
    have hname : e'.name = e.name := by simpa using List.find?_some hfound
    rw [hfound, h.name_injective (List.mem_of_find?_eq_some hfound) hmem hname]

theorem at?_cons_eq_some_iff {e c : Entry} {name : String} {rest : List String} :
    e.at? (name :: rest) = some c ↔ ∃ e', e.child? name = some e' ∧ e'.at? rest = some c := by
  rw [at?, Option.bind_eq_some_iff]

theorem WellFormed.of_child? {e c : Entry} (h : e.WellFormed) {name : String}
    (hc : e.child? name = some c) : c.WellFormed ∧ Path.IsName name ∧ c.name = name := by
  cases e with
  | file n content => simp [child?] at hc
  | directory d entries =>
    obtain ⟨hmem, rfl⟩ := (child?_eq_some_iff h).mp hc
    cases h with
    | directory _ _ _ named within => exact ⟨within c hmem, named c hmem, rfl⟩

theorem WellFormed.of_at? {e c : Entry} {names : List String} (h : e.WellFormed)
    (hat : e.at? names = some c) : c.WellFormed := by
  induction names generalizing e with
  | nil =>
    obtain rfl : e = c := by simpa [at?] using hat
    exact h
  | cons name rest ih =>
    obtain ⟨e', hchild, hrest⟩ := at?_cons_eq_some_iff.mp hat
    exact ih (h.of_child? hchild).1 hrest

theorem WellFormed.isName_of_at? {e c : Entry} {names : List String} (h : e.WellFormed)
    (hat : e.at? names = some c) : ∀ name ∈ names, Path.IsName name := by
  induction names generalizing e with
  | nil => simp
  | cons name rest ih =>
    obtain ⟨e', hchild, hrest⟩ := at?_cons_eq_some_iff.mp hat
    obtain ⟨he', hname, -⟩ := h.of_child? hchild
    exact List.forall_mem_cons.mpr ⟨hname, ih he' hrest⟩

/-- The last of the names that lead to an entry is its own. -/
theorem WellFormed.name_of_at? {e c : Entry} {names : List String} {name : String}
    (h : e.WellFormed) (hat : e.at? (names ++ [name]) = some c) : c.name = name := by
  induction names generalizing e with
  | nil =>
    obtain ⟨e', hchild, hrest⟩ := at?_cons_eq_some_iff.mp hat
    obtain rfl : e' = c := by simpa [at?] using hrest
    exact (h.of_child? hchild).2.2
  | cons n rest ih =>
    obtain ⟨e', hchild, hrest⟩ := at?_cons_eq_some_iff.mp hat
    exact ih (h.of_child? hchild).1 hrest

/-- Nothing stands below a file. -/
theorem at?_file_eq_some_iff {name : String} {content : ByteArray} {names : List String}
    {c : Entry} : (file name content).at? names = some c ↔ names = [] ∧ c = file name content := by
  cases names with
  | nil => simp [at?, eq_comm]
  | cons n rest => simp [at?, child?]

theorem at?_append (e : Entry) (front rest : List String) :
    e.at? (front ++ rest) = (e.at? front).bind (·.at? rest) := by
  induction front generalizing e with
  | nil => rfl
  | cons name front ih =>
    rw [List.cons_append, at?, at?, Option.bind_assoc]
    exact Option.bind_congr fun e' _ => ih e'

/-- Only directories have something below them. -/
theorem isDirectory_of_at? {e c : Entry} {names : List String} (hne : names ≠ [])
    (h : e.at? names = some c) : e.isDirectory = true := by
  cases e with
  | directory d entries => rfl
  | file name content => exact absurd (at?_file_eq_some_iff.mp h).1 hne

end CodeSmell.Entry
