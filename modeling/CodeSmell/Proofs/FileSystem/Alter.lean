import CodeSmell.Proofs.FileSystem.WellFormed

/-!
# Changed entries

* `Entry.label` : what an entry shows of itself, without what is in it;
* `child?_alterIn_same`, `child?_alterIn_gone`, `child?_alterIn_other` : what is in a directory in which
  one entry has been changed;
* `WellFormed.changeIn` : such a directory stays well formed, if the entry does and keeps its name;
* `alter_cons` : an entry is changed below some names by changing the one that the first stands for.
-/

namespace CodeSmell.Entry

/-- What an entry is called, and its content if it is a file. -/
def label : Entry → String × Option ByteArray
  | file name content => (name, some content)
  | directory name _ => (name, none)

theorem label_eq_file_iff {e : Entry} {name : String} {content : ByteArray} :
    e.label = (name, some content) ↔ e = file name content := by
  cases e <;> simp [label]

theorem isDirectory_eq_of_label {e e' : Entry} (h : e.label = e'.label) :
    e.isDirectory = e'.isDirectory := by
  cases e <;> cases e' <;> simp_all [label, isDirectory]

theorem name_eq_of_label {e e' : Entry} (h : e.label = e'.label) : e.name = e'.name := by
  cases e <;> cases e' <;> simp_all [label, name]

/-- Two entries that show the same at some names have the same file there. -/
theorem at?_file_congr {e e' : Entry} {names : List String}
    (h : (e'.at? names).map label = (e.at? names).map label) {name : String} {content : ByteArray} :
    e'.at? names = some (file name content) ↔ e.at? names = some (file name content) := by
  have hfile : ∀ o : Option Entry, o = some (file name content) ↔
      o.map label = some (name, some content) := by
    intro o
    cases o with
    | none => simp
    | some c => rw [Option.map_some, Option.some_inj, Option.some_inj, label_eq_file_iff]
  rw [hfile, hfile, h]

/-! ## Changing one entry of a directory -/

section AlterIn

variable {name : String} {change : Option Entry → Option Entry} {d : String} {entries : List Entry}

theorem name_of_child? {e c : Entry} (h : e.child? name = some c) : c.name = name := by
  cases e with
  | file n content => cases h
  | directory d entries => simpa using List.find?_some h

theorem child?_alterIn_same {c : Entry}
    (hchange : change ((directory d entries).child? name) = some c) (hname : c.name = name) :
    (directory d (alterIn name change entries)).child? name = some c := by
  unfold child? at hchange ⊢
  dsimp only at hchange ⊢
  induction entries with
  | nil => simp_all [alterIn]
  | cons e rest ih =>
    rw [alterIn]
    by_cases he : e.name = name
    · rw [List.find?_cons_of_pos (by simpa using he)] at hchange
      simp [he, hchange, hname]
    · rw [List.find?_cons_of_neg (by simpa using he)] at hchange
      simp [he, ih hchange]

theorem child?_alterIn_other {other : String} (hother : other ≠ name)
    (hname : ∀ c, change ((directory d entries).child? name) = some c → c.name = name) :
    (directory d (alterIn name change entries)).child? other =
      (directory d entries).child? other := by
  unfold child? at hname ⊢
  dsimp only at hname ⊢
  have hskip : ∀ o : Option Entry, (∀ c, o = some c → c.name = name) →
      o.toList.find? (·.name == other) = none := by
    intro o ho
    refine List.find?_eq_none.mpr fun c hc heq => hother ?_
    rw [← ho c (Option.mem_toList.mp hc), ← beq_iff_eq.mp heq]
  induction entries with
  | nil => simpa [alterIn] using hskip _ hname
  | cons e rest ih =>
    rw [alterIn]
    by_cases he : e.name = name
    · rw [List.find?_cons_of_pos (by simpa using he)] at hname
      have hne : e.name ≠ other := fun heq => hother (heq.symm.trans he)
      rw [if_pos (by simpa using he), List.find?_append, hskip _ hname]
      simp [hne]
    · rw [List.find?_cons_of_neg (by simpa using he)] at hname
      rw [if_neg (by simpa using he), List.find?_cons, List.find?_cons, ih hname]

theorem child?_alterIn_gone (hdistinct : (entries.map Entry.name).Nodup)
    (hchange : change ((directory d entries).child? name) = none) :
    (directory d (alterIn name change entries)).child? name = none := by
  unfold child? at hchange ⊢
  dsimp only at hchange ⊢
  induction entries with
  | nil => simp_all [alterIn]
  | cons e rest ih =>
    obtain ⟨hfresh, hrest⟩ := List.nodup_cons.mp hdistinct
    rw [alterIn]
    by_cases he : e.name = name
    · rw [List.find?_cons_of_pos (by simpa using he)] at hchange
      rw [if_pos (by simpa using he), hchange]
      refine List.find?_eq_none.mpr fun later hlater heq => hfresh ?_
      rw [he, ← beq_iff_eq.mp heq]
      exact List.mem_map_of_mem hlater
    · rw [List.find?_cons_of_neg (by simpa using he)] at hchange
      simp [he, ih hrest hchange]

/-- What is in a changed directory was there, or is what the entry of the name, if there was one, is
changed to. -/
theorem mem_alterIn {c : Entry} (h : c ∈ alterIn name change entries) :
    c ∈ entries ∨ ∃ o : Option Entry, (∀ e ∈ o, e ∈ entries ∧ e.name = name) ∧ change o = some c := by
  induction entries with
  | nil => exact .inr ⟨none, nofun, Option.mem_toList.mp h⟩
  | cons e rest ih =>
    rw [alterIn] at h
    split at h
    · next he =>
      rcases List.mem_append.mp h with h | h
      · refine .inr ⟨some e, ?_, Option.mem_toList.mp h⟩
        rintro e' ⟨⟩
        exact ⟨List.mem_cons_self, beq_iff_eq.mp he⟩
      · exact .inl (List.mem_cons_of_mem e h)
    · rcases List.mem_cons.mp h with rfl | h
      · exact .inl List.mem_cons_self
      · rcases ih h with h | ⟨o, ho, h⟩
        · exact .inl (List.mem_cons_of_mem e h)
        · exact .inr ⟨o, fun e' he' => ⟨List.mem_cons_of_mem e (ho e' he').1, (ho e' he').2⟩, h⟩

/-- A directory stays well formed if an entry of it is changed to one that is, and that goes by the
same name. -/
theorem WellFormed.changeIn (h : (Entry.directory d entries).WellFormed)
    (hchange : ∀ o c, (∀ e ∈ o, e ∈ entries ∧ e.name = name) → change o = some c →
      c.name = name ∧ Path.IsName name ∧ c.WellFormed) :
    (Entry.directory d (alterIn name change entries)).WellFormed := by
  cases h with | directory _ _ distinct named within
  refine .directory _ _ ?_ ?_ ?_
  · clear named within
    induction entries with
    | nil => cases h : change none <;> simp [alterIn, h]
    | cons e rest ih =>
      obtain ⟨hfresh, hrest⟩ := List.nodup_cons.mp distinct
      have hlater : ∀ o c, (∀ e' ∈ o, e' ∈ rest ∧ e'.name = name) → change o = some c →
          c.name = name ∧ Path.IsName name ∧ c.WellFormed :=
        fun o c ho => hchange o c fun e' he' => ⟨List.mem_cons_of_mem e (ho e' he').1, (ho e' he').2⟩
      rw [alterIn]
      split
      · next he =>
        have he : e.name = name := beq_iff_eq.mp he
        cases hc : change (some e) with
        | none => simpa using hrest
        | some c =>
          have hsame := hchange (some e) c (by rintro e' ⟨⟩; exact ⟨List.mem_cons_self, he⟩) hc
          have hname : c.name = e.name := hsame.1.trans he.symm
          simpa [hname] using distinct
      · next he =>
        rw [List.map_cons, List.nodup_cons]
        refine ⟨fun hmem => ?_, ih hlater hrest⟩
        obtain ⟨c, hc, heq⟩ := List.mem_map.mp hmem
        rcases mem_alterIn hc with hc | ⟨o, ho, hc⟩
        · exact hfresh (heq ▸ List.mem_map_of_mem hc)
        · rw [(hlater o c ho hc).1] at heq
          exact he (beq_iff_eq.mpr heq.symm)
  · intro c hc
    rcases mem_alterIn hc with hc | ⟨o, ho, hc⟩
    · exact named c hc
    · obtain ⟨hsame, hname, -⟩ := hchange o c ho hc
      rwa [hsame]
  · intro c hc
    rcases mem_alterIn hc with hc | ⟨o, ho, hc⟩
    · exact within c hc
    · exact (hchange o c ho hc).2.2

end AlterIn

theorem alter_cons (change : Option Entry → Option Entry) (name : String) (rest : List String)
    (d : String) (entries : List Entry) :
    (directory d entries).alter change (name :: rest) = directory d
      (alterIn name (if rest = [] then change else Option.map (alter change rest)) entries) := by
  cases rest with
  | nil => rfl
  | cons next rest =>
    rw [if_neg (List.cons_ne_nil next rest)]
    rfl

theorem label_alter {names : List String} (hne : names ≠ []) (change : Option Entry → Option Entry)
    (e : Entry) : (e.alter change names).label = e.label := by
  obtain ⟨name, rest, rfl⟩ := List.exists_cons_of_ne_nil hne
  cases e with
  | file n content => cases rest <;> rfl
  | directory d entries => rw [alter_cons]; rfl

end CodeSmell.Entry
