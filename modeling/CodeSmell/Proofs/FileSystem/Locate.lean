import CodeSmell.FileSystem.Basic
import CodeSmell.Proofs.FileSystem.WellFormed

/-!
# Where paths lead

* `FileSystem.step_eq_ok_iff`, `resolve_eq_ok_iff`, `locate_eq_ok_iff` : where a step and where a path
  leads; `read_eq_ok_iff`, `isFile_iff`, `isDirectory_iff` : what is there;
* `Path.ofNames_injective` : names can be told from the absolute path made of them;
* `FileSystem.Admits` : a system takes a path, which is not too long for it;
* `FileSystem.eq_of_locate_ofNames`, `locate_ofNames_iff` : an absolute path made of names leads to these
  names and to no others, and does so if something is there and the system takes the path.
-/

namespace CodeSmell

theorem Path.ofNames_injective {names names' : List String} (h : ∀ name ∈ names, IsName name)
    (h' : ∀ name ∈ names', IsName name) (heq : ofNames names = ofNames names') : names = names' := by
  have hsteps := congrArg components heq
  rw [components_ofNames h, components_ofNames h', List.cons.injEq] at hsteps
  exact List.map_injective_iff.mpr (fun a b => Component.name.inj) hsteps.2

namespace FileSystem

/-! ## Steps and paths -/

def hasDirectory (fs : FileSystem) (names : List String) : Bool :=
  (fs.root.at? names).any (·.isDirectory)

theorem hasDirectory_iff {fs : FileSystem} {names : List String} :
    fs.hasDirectory names = true ↔ ∃ d, fs.root.at? names = some d ∧ d.isDirectory = true :=
  Option.any_eq_true _ _

/-- A step leads from a directory to itself, to the one above it or to something in it. -/
theorem step_eq_ok_iff {fs : FileSystem} {here there : List String} {segment : String} :
    fs.step here segment = .ok there ↔ fs.hasDirectory here = true ∧
      if segment = "" ∨ segment = "." then there = here
      else if segment = ".." then there = here.dropLast
      else segment.utf8ByteSize ≤ nameLimit ∧ there = here ++ [segment] ∧
        (fs.root.at? there).isSome := by
  unfold step hasDirectory
  cases hat : fs.root.at? here with
  | none => simp
  | some e =>
    cases e with
    | file name content => simp [Entry.isDirectory]
    | directory d entries =>
      have hchild : ((Entry.directory d entries).child? segment).isSome =
          (fs.root.at? (here ++ [segment])).isSome := by
        simp [Entry.at?_append, hat, Entry.at?]
      have htrue : (some (Entry.directory d entries)).any (·.isDirectory) = true := rfl
      simp only [htrue, true_and, Bool.or_eq_true, beq_iff_eq, hchild]
      split
      · rw [Except.ok.injEq, eq_comm]
      · split
        · rw [Except.ok.injEq, eq_comm]
        · split
          · next hlong => simp [Nat.not_le.mpr hlong]
          · next hshort =>
            rw [and_iff_right (Nat.not_lt.mp hshort)]
            split
            · next hthere =>
              rw [Except.ok.injEq, eq_comm]
              constructor
              · rintro rfl
                exact ⟨rfl, hthere⟩
              · exact And.left
            · next hthere =>
              refine iff_of_false (by simp) ?_
              rintro ⟨rfl, hsome⟩
              exact hthere hsome

theorem foldlM_step_cons_eq_ok_iff {fs : FileSystem} {here there : List String} {segment : String}
    {rest : List String} :
    (segment :: rest).foldlM fs.step here = .ok there ↔
      ∃ next, fs.step here segment = .ok next ∧ rest.foldlM fs.step next = .ok there := by
  rw [List.foldlM_cons]
  cases fs.step here segment with
  | error f => exact iff_of_false nofun (by simp)
  | ok next => simp [bind, Except.bind]

theorem resolve_eq_ok_iff {fs : FileSystem} {path : String} {names : List String} :
    fs.resolve path = .ok names ↔ path.toList.contains '\x00' = false ∧ path.isEmpty = false ∧
      (Path.segments path).foldlM fs.step (fs.start path) = .ok names := by
  unfold resolve
  split
  · next hnul => exact iff_of_false nofun fun h => Bool.false_ne_true (h.1.symm.trans hnul)
  · next hnul =>
    split
    · next hempty =>
      exact iff_of_false nofun fun h => Bool.false_ne_true (h.2.1.symm.trans hempty)
    · next hempty =>
      rw [Bool.not_eq_true] at hnul hempty
      exact ⟨fun h => ⟨hnul, hempty, h⟩, fun h => h.2.2⟩

theorem locate_eq_ok_iff {fs : FileSystem} {path : String} {names : List String} :
    fs.locate path = .ok names ↔ refused? path = none ∧ fs.resolve path = .ok names := by
  unfold locate
  cases refused? path with
  | none => simp
  | some f => simp

theorem read_eq_ok_iff {fs : FileSystem} {path : String} {content : ByteArray} :
    fs.read path = .ok content ↔ ∃ names name, fs.locate path = .ok names ∧
      fs.root.at? names = some (.file name content) := by
  unfold read
  cases fs.locate path with
  | error f => simp [Except.bind]
  | ok names =>
    rw [Except.bind]
    cases hat : fs.root.at? names with
    | none => simp [hat]
    | some e => cases e <;> simp [hat]

theorem isFile_iff {fs : FileSystem} {path : String} :
    fs.isFile path = true ↔ ∃ content, fs.read path = .ok content := by
  simp only [read_eq_ok_iff]
  unfold isFile entry?
  cases fs.locate path with
  | error f => simp
  | ok names =>
    cases hat : fs.root.at? names with
    | none => simp [hat]
    | some e => cases e <;> simp [hat, Entry.isDirectory]

theorem isDirectory_iff {fs : FileSystem} {path : String} :
    fs.isDirectory path = true ↔ ∃ names, fs.locate path = .ok names ∧ fs.hasDirectory names = true := by
  unfold isDirectory entry? hasDirectory
  cases fs.locate path with
  | error f => simp
  | ok names => simp

theorem refused?_eq_none_iff {path : String} :
    refused? path = none ↔ path.toList.contains '\x00' = false ∧ path.isEmpty = false ∧
      path.utf8ByteSize < pathLimit := by
  unfold refused?
  split
  · next hnul => exact iff_of_false nofun fun h => Bool.false_ne_true (h.1.symm.trans hnul)
  · next hnul =>
    split
    · next hempty =>
      exact iff_of_false nofun fun h => Bool.false_ne_true (h.2.1.symm.trans hempty)
    · next hempty =>
      rw [Bool.not_eq_true] at hnul hempty
      rw [and_iff_right hnul, and_iff_right hempty]
      split
      · next hlong => exact iff_of_false nofun (Nat.not_lt.mpr hlong)
      · next hshort => exact iff_of_true rfl (Nat.not_le.mp hshort)

/-! ## Absolute paths -/

variable {fs : FileSystem} {names : List String}

theorem canonical_of_locate {path : String} (h : fs.locate path = .ok names) :
    fs.canonical path = .ok (Path.ofNames names) := by
  rw [canonical, (locate_eq_ok_iff.mp h).2]
  rfl

theorem hasDirectory_of_isSome_at? {name : String} {rest : List String}
    (hat : (fs.root.at? (names ++ name :: rest)).isSome) :
    fs.hasDirectory names = true ∧ (fs.root.at? (names ++ [name])).isSome := by
  obtain ⟨e, he⟩ := Option.isSome_iff_exists.mp hat
  rw [Entry.at?_append, Option.bind_eq_some_iff] at he
  obtain ⟨d, hd, hrest⟩ := he
  obtain ⟨c, hc, -⟩ := Entry.at?_cons_eq_some_iff.mp hrest
  constructor
  · refine hasDirectory_iff.mpr ⟨d, hd, ?_⟩
    cases d with
    | file n content => cases hc
    | directory n entries => rfl
  · rw [Entry.at?_append, hd, Option.bind_some, Entry.at?, hc]
    rfl

theorem step_name_eq_ok_iff {here there : List String} {name : String} (h : Path.IsName name) :
    fs.step here name = .ok there ↔ fs.hasDirectory here = true ∧ name.utf8ByteSize ≤ nameLimit ∧
      there = here ++ [name] ∧ (fs.root.at? there).isSome := by
  rw [step_eq_ok_iff, if_neg (not_or.mpr ⟨h.nonempty, h.not_here⟩), if_neg h.not_up]

/-- Names lead to what stands below them, if none of them is too long. -/
theorem foldlM_step_names_eq_ok_iff (h : ∀ name ∈ names, Path.IsName name)
    {here there : List String} :
    names.foldlM fs.step here = .ok there ↔ there = here ++ names ∧
      (∀ name ∈ names, name.utf8ByteSize ≤ nameLimit) ∧
      (names ≠ [] → (fs.root.at? (here ++ names)).isSome) := by
  induction names generalizing here with
  | nil =>
    rw [List.append_nil]
    constructor
    · intro hend
      exact ⟨(Except.ok.inj hend).symm, nofun, fun hne => absurd rfl hne⟩
    · rintro ⟨rfl, -⟩
      rfl
  | cons name rest ih =>
    obtain ⟨hname, hrest⟩ := List.forall_mem_cons.mp h
    rw [foldlM_step_cons_eq_ok_iff, List.forall_mem_cons]
    simp only [step_name_eq_ok_iff hname, ih hrest]
    constructor
    · rintro ⟨_, ⟨-, hshort, rfl, hthere⟩, rfl, hshorts, hbelow⟩
      rw [List.append_assoc] at hbelow ⊢
      refine ⟨rfl, ⟨hshort, hshorts⟩, fun _ => ?_⟩
      by_cases hend : rest = []
      · rwa [hend]
      · exact hbelow hend
    · rintro ⟨rfl, ⟨hshort, hshorts⟩, hbelow⟩
      have hat := hbelow (List.cons_ne_nil name rest)
      obtain ⟨hd, hthere⟩ := hasDirectory_of_isSome_at? hat
      refine ⟨here ++ [name], ⟨hd, hshort, rfl, hthere⟩, ?_, hshorts, fun _ => ?_⟩
      · rw [List.append_assoc, List.singleton_append]
      · rwa [List.append_assoc, List.singleton_append]

theorem start_ofNames (names : List String) : fs.start (Path.ofNames names) = [] := by
  rw [start, if_pos (Path.isAbsolute_ofNames names)]

/-- The absolute path made of some names leads to no others. -/
theorem eq_of_locate_ofNames (h : ∀ name ∈ names, Path.IsName name) {there : List String}
    (hpath : fs.locate (Path.ofNames names) = .ok there) : there = names := by
  obtain ⟨-, -, hsteps⟩ := resolve_eq_ok_iff.mp (locate_eq_ok_iff.mp hpath).2
  have hstay {here next : List String} (hstep : fs.step here "" = .ok next) : next = here := by
    simpa using (step_eq_ok_iff.mp hstep).2
  rw [start_ofNames] at hsteps
  by_cases hne : names = []
  · subst hne
    rw [show Path.segments (Path.ofNames []) = ["", ""] from rfl] at hsteps
    obtain ⟨first, hfirst, hrest⟩ := foldlM_step_cons_eq_ok_iff.mp hsteps
    obtain ⟨second, hsecond, hend⟩ := foldlM_step_cons_eq_ok_iff.mp hrest
    rw [← Except.ok.inj hend, hstay hsecond, hstay hfirst]
  · rw [Path.segments_ofNames hne h] at hsteps
    obtain ⟨first, hfirst, hrest⟩ := foldlM_step_cons_eq_ok_iff.mp hsteps
    rw [((foldlM_step_names_eq_ok_iff h).mp hrest).1, hstay hfirst, List.nil_append]

/-- A system takes a path: neither the path nor a name in it is longer than it may be. -/
def Admits (path : String) : Prop :=
  refused? path = none ∧ ∀ segment ∈ Path.segments path, segment.utf8ByteSize ≤ nameLimit

instance (path : String) : Decidable (Admits path) :=
  inferInstanceAs (Decidable (_ ∧ _))

/-- The absolute path made of some names leads there if something is there and the system takes the
path. -/
theorem locate_ofNames_iff (hne : names ≠ []) (h : ∀ name ∈ names, Path.IsName name) :
    fs.locate (Path.ofNames names) = .ok names ↔
      (fs.root.at? names).isSome ∧ Admits (Path.ofNames names) := by
  have hfirst {next : List String} :
      fs.step [] "" = .ok next ↔ fs.hasDirectory [] = true ∧ next = [] := by
    rw [step_eq_ok_iff, if_pos (.inl rfl)]
  have hshorts : (∀ segment ∈ "" :: names, segment.utf8ByteSize ≤ nameLimit) ↔
      ∀ name ∈ names, name.utf8ByteSize ≤ nameLimit := by
    rw [List.forall_mem_cons, and_iff_right (by decide)]
  rw [locate_eq_ok_iff, resolve_eq_ok_iff, start_ofNames, Admits, Path.segments_ofNames hne h,
    foldlM_step_cons_eq_ok_iff, hshorts]
  simp only [hfirst, foldlM_step_names_eq_ok_iff h]
  constructor
  · rintro ⟨haccepted, -, -, _, ⟨-, rfl⟩, -, hshort, hthere⟩
    exact ⟨hthere hne, haccepted, hshort⟩
  · rintro ⟨hthere, haccepted, hshort⟩
    obtain ⟨hnul, hempty, -⟩ := refused?_eq_none_iff.mp haccepted
    obtain ⟨name, rest, rfl⟩ := List.exists_cons_of_ne_nil hne
    have hroot : fs.hasDirectory [] = true := (@hasDirectory_of_isSome_at? fs [] name rest hthere).1
    exact ⟨haccepted, hnul, hempty, [], ⟨hroot, rfl⟩, rfl, hshort, fun _ => hthere⟩

theorem root_isDirectory (h : fs.hasDirectory names = true) : fs.root.isDirectory = true := by
  obtain ⟨d, hat, hd⟩ := hasDirectory_iff.mp h
  cases hroot : fs.root with
  | directory d entries => rfl
  | file name content =>
    rw [hroot, Entry.at?_file_eq_some_iff] at hat
    rw [hat.2] at hd
    cases hd

/-- A file that a path leads to is not the root: it stands in a directory. -/
theorem ne_nil_of_locate {path name : String} {content : ByteArray}
    (hpath : fs.locate path = .ok names) (hat : fs.root.at? names = some (.file name content)) :
    names ≠ [] := by
  obtain ⟨-, -, hsteps⟩ := resolve_eq_ok_iff.mp (locate_eq_ok_iff.mp hpath).2
  obtain ⟨segment, rest, hsegments⟩ := List.exists_cons_of_ne_nil (Path.segments_ne_nil path)
  rw [hsegments] at hsteps
  obtain ⟨next, hstep, -⟩ := foldlM_step_cons_eq_ok_iff.mp hsteps
  have hroot := root_isDirectory (step_eq_ok_iff.mp hstep).1
  rintro rfl
  rw [Option.some_inj.mp hat] at hroot
  cases hroot

theorem absolute_of_locate {path : String} (h : fs.locate path = .ok names) :
    fs.absolute path = Path.ofNames names := by
  rw [absolute, canonical_of_locate h]

theorem entry_of_locate {path : String} {e : Entry} (h : fs.locate path = .ok names)
    (hat : fs.root.at? names = some e) : fs.entry? path = some e := by
  unfold entry?
  rw [h]
  exact hat

theorem isFile_of_locate {path : String} {e : Entry} (h : fs.locate path = .ok names)
    (hat : fs.root.at? names = some e) : fs.isFile path = !e.isDirectory := by
  rw [isFile, entry_of_locate h hat]
  rfl

end FileSystem

end CodeSmell
