import CodeSmell.Proofs.FileSystem.Removal
import Mathlib.Data.List.TakeWhile

/-!
# Entries put into a file system

* `Entry.Gains` : an entry that shows the same as another at all names but some, and something new
  there; so it is when a leaf is put there (`gains_alter`), and all stays well formed
  (`WellFormed.put`);
* `FileSystem.Enters` : a path leads into a directory and names an entry of it;
* `exists_of_write`, `exists_of_makeDirectory` : where a file is written and a directory is made;
* `FileSystem.Covers` : what was there is still there; then all paths lead where they did
  (`Covers.locate_ok`);
* `FileSystem.Gains` : what writing a file and making a directory change (`gains_of_write`,
  `gains_of_makeDirectory`).
-/

namespace CodeSmell.Entry

/-! ## Putting an entry below some names -/

/-- The entry `e'` shows the same as `e` at all names but some, and something new there. -/
structure Gains (names : List String) (shown : String × Option ByteArray) (e e' : Entry) : Prop where
  there : (e'.at? names).map label = some shown
  elsewhere : ∀ other, other ≠ names → (e'.at? other).map label = (e.at? other).map label

/-- A leaf that is put into a directory, over another or where nothing was, is all that changes. -/
theorem gains_alter {e x d : Entry} {above : List String} (habove : e.at? above = some d)
    (hd : d.isDirectory = true) (hx : ∀ n, x.child? n = none)
    (hbefore : ∀ c, e.at? (above ++ [x.name]) = some c → ∀ n, c.child? n = none) :
    Gains (above ++ [x.name]) x.label e (e.alter (fun _ => some x) (above ++ [x.name])) := by
  -- both fields by one induction, on the names that lead to the directory
  suffices hat : ∀ other, ((e.alter (fun _ => some x) (above ++ [x.name])).at? other).map label =
      if other = above ++ [x.name] then some x.label else (e.at? other).map label by
    refine ⟨?_, fun other hother => ?_⟩
    · rw [hat, if_pos rfl]
    · rw [hat, if_neg hother]
  have hbelow : ∀ {c : Entry} {n rest}, c.child? n = none → c.at? (n :: rest) = none := by
    intro c n rest h
    rw [at?, h, Option.bind_none]
  induction above generalizing e with
  | nil =>
    obtain rfl : e = d := by simpa [at?] using habove
    cases e with
    | file n content => cases hd
    | directory d entries =>
      intro other
      rw [List.nil_append, alter_cons, if_pos rfl]
      rw [List.nil_append] at hbefore
      cases other with
      | nil => simp [at?, label]
      | cons o more =>
        rw [at?, at?]
        by_cases ho : o = x.name
        · subst ho
          rw [child?_alterIn_same rfl rfl, Option.bind_some]
          cases more with
          | nil => simp [at?]
          | cons n more =>
            rw [hbelow (hx n), if_neg (by simp)]
            cases hc : (directory d entries).child? x.name with
            | none => rfl
            | some c =>
              rw [Option.bind_some, hbelow (hbefore c (by simp [at?, hc]) n)]
        · rw [child?_alterIn_other ho fun c hc => by cases hc; rfl, if_neg (by simp [ho])]
  | cons n above ih =>
    obtain ⟨c, hchild, hrest⟩ := at?_cons_eq_some_iff.mp habove
    cases e with
    | file n' content => cases hchild
    | directory d' entries =>
      have hne : above ++ [x.name] ≠ [] := by simp
      have hchanged : Option.map (alter (fun _ => some x) (above ++ [x.name]))
          ((directory d' entries).child? n) =
            some (c.alter (fun _ => some x) (above ++ [x.name])) := by
        rw [hchild, Option.map_some]
      have hname : (c.alter (fun _ => some x) (above ++ [x.name])).name = n := by
        rw [name_eq_of_label (label_alter hne _ c), name_of_child? hchild]
      intro other
      rw [List.cons_append, alter_cons, if_neg hne]
      cases other with
      | nil => simp [at?, label]
      | cons o more =>
        rw [at?, at?]
        by_cases ho : o = n
        · subst ho
          have hbefore' : ∀ c', c.at? (above ++ [x.name]) = some c' → ∀ n, c'.child? n = none :=
            fun c' hc' => hbefore c' (at?_cons_eq_some_iff.mpr ⟨c, hchild, hc'⟩)
          rw [child?_alterIn_same hchanged hname, hchild, Option.bind_some, Option.bind_some,
            ih hrest hbefore' more]
          simp
        · have hkept : ∀ c', Option.map (alter (fun _ => some x) (above ++ [x.name]))
              ((directory d' entries).child? n) = some c' → c'.name = n := by
            intro c' hc'
            rw [hchanged] at hc'
            cases hc'
            exact hname
          rw [child?_alterIn_other ho hkept, if_neg (by simp [ho])]

theorem WellFormed.put {e x : Entry} (h : e.WellFormed) (hx : x.WellFormed)
    (hname : Path.IsName x.name) (above : List String) :
    (e.alter (fun _ => some x) (above ++ [x.name])).WellFormed := by
  induction above generalizing e with
  | nil =>
    cases e with
    | file n content => exact h
    | directory d entries =>
      rw [List.nil_append, alter_cons, if_pos rfl]
      refine h.changeIn fun o c _ hc => ?_
      cases hc
      exact ⟨rfl, hname, hx⟩
  | cons n above ih =>
    cases e with
    | file n' content => cases above <;> exact h
    | directory d entries =>
      have hne : above ++ [x.name] ≠ [] := by simp
      rw [List.cons_append, alter_cons, if_neg hne]
      refine h.changeIn fun o c ho hc => ?_
      obtain ⟨e, rfl, rfl⟩ := Option.map_eq_some_iff.mp hc
      obtain ⟨hmem, rfl⟩ := ho e rfl
      have hchild := (child?_eq_some_iff h).mpr ⟨hmem, rfl⟩
      obtain ⟨he, hisName, -⟩ := h.of_child? hchild
      exact ⟨name_eq_of_label (label_alter hne _ e), hisName, ih he⟩

end CodeSmell.Entry

namespace CodeSmell.FileSystem

/-! ## Paths into a directory -/

theorem no_slash_of_segments {path segment : String} {before after : List String}
    (h : Path.segments path = before ++ segment :: after) : '/' ∉ segment.toList := by
  have hmem : segment ∈ Path.segments path := by
    rw [h]
    exact List.mem_append_right before List.mem_cons_self
  exact Path.no_slash_of_mem_segments hmem

/-- The last segment that is not empty is found with all that stands around it. -/
theorem lastSegment?_eq_some {path name : String} {before : List String} {withSlash : Bool}
    (h : lastSegment? path = some (before, name, withSlash)) :
    ∃ after, Path.segments path = before ++ name :: after ∧ (∀ s ∈ after, s = "") ∧ name ≠ "" ∧
      (withSlash = false → after = []) := by
  generalize hfront : (Path.segments path).reverse.takeWhile (· == "") = front
  have hidle : ∀ s ∈ front, s = "" := by
    intro s hs
    rw [← hfront] at hs
    exact beq_iff_eq.mp (List.mem_takeWhile_imp (p := (· == "")) hs)
  have hsplit := List.takeWhile_append_dropWhile (p := (· == "")) (l := (Path.segments path).reverse)
  have hhead := List.head?_dropWhile_not (· == "") (Path.segments path).reverse
  unfold lastSegment? at h
  dsimp only at h
  split at h
  · cases h
  · next last back hback =>
    cases h
    rw [hback] at hsplit hhead
    rw [hfront] at hsplit
    refine ⟨front.reverse, ?_, ?_, by simpa using hhead, ?_⟩
    · rw [← List.reverse_inj, ← hsplit]
      simp
    · intro s hs
      exact hidle s (List.mem_reverse.mp hs)
    · intro hslash
      rw [← hsplit] at hslash
      cases front with
      | nil => rfl
      | cons s more => simp [hidle s List.mem_cons_self] at hslash

/-- A path leads through the segments `before` into the directory at `above`, and names an entry of
it. -/
structure Enters (fs : FileSystem) (path : String) (before above : List String) (name : String) :
    Prop where
  accepted : refused? path = none
  leads : before.foldlM fs.step (fs.start path) = .ok above
  isDirectory : fs.hasDirectory above = true
  isName : Path.IsName name
  short : name.utf8ByteSize ≤ nameLimit

theorem directoryAt_eq_ok_iff {fs : FileSystem} {path : String} {segments names : List String} :
    fs.directoryAt path segments = .ok names ↔
      segments.foldlM fs.step (fs.start path) = .ok names ∧ fs.hasDirectory names = true := by
  unfold directoryAt follow
  cases segments.foldlM fs.step (fs.start path) with
  | error f => exact iff_of_false nofun fun h => nomatch h.1
  | ok names' =>
    rw [Except.bind, Except.ok.injEq]
    unfold hasDirectory
    cases hat : fs.root.at? names' with
    | none =>
      refine iff_of_false nofun ?_
      rintro ⟨rfl, hd⟩
      rw [hat] at hd
      cases hd
    | some e =>
      cases e with
      | file n content =>
        refine iff_of_false nofun ?_
        rintro ⟨rfl, hd⟩
        rw [hat] at hd
        cases hd
      | directory d entries =>
        rw [Except.ok.injEq]
        refine ⟨?_, And.left⟩
        rintro rfl
        rw [hat]
        exact ⟨rfl, rfl⟩

/-- A file is written where the path leads, unless a directory is there. -/
theorem exists_of_write {fs fs' : FileSystem} {path : String} {content : ByteArray}
    (h : fs.write path content = .ok fs') :
    ∃ before above name, Path.segments path = before ++ [name] ∧ fs.Enters path before above name ∧
      (∀ e, fs.root.at? (above ++ [name]) = some e → e.isDirectory = false) ∧
      fs' = fs.put (above ++ [name]) (.file name content) := by
  unfold write at h
  split at h
  · cases h
  · cases h
  · next before name withSlash haccepted hlast =>
    obtain ⟨after, hsegments, -, hne, hafter⟩ := lastSegment?_eq_some hlast
    cases hdirectory : fs.directoryAt path before with
    | error f => rw [hdirectory] at h; cases h
    | ok above =>
      obtain ⟨hleads, hd⟩ := directoryAt_eq_ok_iff.mp hdirectory
      rw [hdirectory, Except.bind] at h
      split at h
      · cases h
      · next hplain =>
        simp only [Bool.or_eq_true, beq_iff_eq, not_or, Bool.not_eq_true] at hplain
        obtain ⟨⟨hhere, hup⟩, hslash⟩ := hplain
        split at h
        · cases h
        · next hshort =>
          have hname : Path.IsName name :=
            ⟨hne, hhere, hup, no_slash_of_segments hsegments⟩
          have henters : fs.Enters path before above name :=
            ⟨haccepted, hleads, hd, hname, Nat.not_lt.mp hshort⟩
          rw [hafter hslash] at hsegments
          split at h
          · cases h
          · next hbefore =>
            cases h
            refine ⟨before, above, name, hsegments, henters, fun e he => ?_, rfl⟩
            cases e with
            | file n content' => rfl
            | directory d entries => exact absurd he (hbefore d entries)

/-- A directory is made where nothing was. -/
theorem exists_of_makeDirectory {fs fs' : FileSystem} {path : String}
    (h : fs.makeDirectory path = .ok fs') :
    ∃ before above name, fs.Enters path before above name ∧
      fs.root.at? (above ++ [name]) = none ∧
      fs' = fs.put (above ++ [name]) (.directory name []) := by
  unfold makeDirectory at h
  split at h
  · cases h
  · cases h
  · next before name withSlash haccepted hlast =>
    obtain ⟨after, hsegments, -, hne, -⟩ := lastSegment?_eq_some hlast
    cases hdirectory : fs.directoryAt path before with
    | error f => rw [hdirectory] at h; cases h
    | ok above =>
      obtain ⟨hleads, hd⟩ := directoryAt_eq_ok_iff.mp hdirectory
      rw [hdirectory, Except.bind] at h
      split at h
      · cases h
      · next hplain =>
        simp only [Bool.or_eq_true, beq_iff_eq, not_or] at hplain
        split at h
        · cases h
        · next hshort =>
          have hname : Path.IsName name :=
            ⟨hne, hplain.1, hplain.2, no_slash_of_segments hsegments⟩
          split at h
          · cases h
          · next hfree =>
            cases h
            exact ⟨before, above, name, ⟨haccepted, hleads, hd, hname, Nat.not_lt.mp hshort⟩,
              Option.not_isSome_iff_eq_none.mp hfree, rfl⟩

/-! ## What is still there -/

/-- Nothing of the first file system is gone in the second, and its directories are directories
there. -/
structure Covers (fs fs' : FileSystem) : Prop where
  working : fs'.working = fs.working
  directories : ∀ names, fs.hasDirectory names = true → fs'.hasDirectory names = true
  entries : ∀ names, (fs.root.at? names).isSome → (fs'.root.at? names).isSome

namespace Covers

variable {fs fs' : FileSystem} (h : fs.Covers fs')
include h

theorem step_ok {here there : List String} {segment : String}
    (hstep : fs.step here segment = .ok there) : fs'.step here segment = .ok there := by
  obtain ⟨hd, hthere⟩ := step_eq_ok_iff.mp hstep
  refine step_eq_ok_iff.mpr ⟨h.directories here hd, ?_⟩
  split at hthere
  · next hidle => rwa [if_pos hidle]
  · next hidle =>
    rw [if_neg hidle]
    split at hthere
    · next hup => rwa [if_pos hup]
    · next hup =>
      obtain ⟨hshort, hsame, hsome⟩ := hthere
      rw [if_neg hup]
      exact ⟨hshort, hsame, h.entries there hsome⟩

theorem foldlM_step_ok {segments here there : List String}
    (hsteps : segments.foldlM fs.step here = .ok there) :
    segments.foldlM fs'.step here = .ok there := by
  induction segments generalizing here with
  | nil => exact hsteps
  | cons segment rest ih =>
    obtain ⟨next, hstep, hrest⟩ := foldlM_step_cons_eq_ok_iff.mp hsteps
    exact foldlM_step_cons_eq_ok_iff.mpr ⟨next, h.step_ok hstep, ih hrest⟩

theorem start_eq (path : String) : fs'.start path = fs.start path := by
  unfold start
  rw [h.working]

/-- A path leads where it did. -/
theorem locate_ok {path : String} {names : List String} (hpath : fs.locate path = .ok names) :
    fs'.locate path = .ok names := by
  obtain ⟨haccepted, hresolve⟩ := locate_eq_ok_iff.mp hpath
  obtain ⟨hnul, hempty, hsteps⟩ := resolve_eq_ok_iff.mp hresolve
  refine locate_eq_ok_iff.mpr ⟨haccepted, resolve_eq_ok_iff.mpr ⟨hnul, hempty, ?_⟩⟩
  rw [h.start_eq]
  exact h.foldlM_step_ok hsteps

end Covers

/-- A path whose last segment names what is in the directory that it leads into leads there. -/
theorem Enters.locate_ok {fs : FileSystem} {path name : String} {before above : List String}
    (h : fs.Enters path before above name) (hsegments : Path.segments path = before ++ [name])
    (hthere : (fs.root.at? (above ++ [name])).isSome) : fs.locate path = .ok (above ++ [name]) := by
  obtain ⟨hnul, hempty, -⟩ := refused?_eq_none_iff.mp h.accepted
  have hstep : fs.step above name = .ok (above ++ [name]) := by
    refine step_eq_ok_iff.mpr ⟨h.isDirectory, ?_⟩
    rw [if_neg (not_or.mpr ⟨h.isName.nonempty, h.isName.not_here⟩), if_neg h.isName.not_up]
    exact ⟨h.short, rfl, hthere⟩
  refine locate_eq_ok_iff.mpr ⟨h.accepted, resolve_eq_ok_iff.mpr ⟨hnul, hempty, ?_⟩⟩
  rw [hsegments, List.foldlM_append, h.leads]
  exact foldlM_step_cons_eq_ok_iff.mpr ⟨_, hstep, rfl⟩

/-! ## What writing and making change -/

/-- The second file system shows something new at some names, where no directory was, and shows the
same as the first everywhere else. -/
structure Gains (names : List String) (shown : String × Option ByteArray) (fs fs' : FileSystem) :
    Prop where
  working : fs'.working = fs.working
  root : Entry.Gains names shown fs.root fs'.root
  notOver : fs.hasDirectory names = false

theorem Enters.gains {fs : FileSystem} {path : String} {before above : List String} {x : Entry}
    (h : fs.Enters path before above x.name) (hx : ∀ n, x.child? n = none)
    (hfree : ∀ e, fs.root.at? (above ++ [x.name]) = some e → e.isDirectory = false) :
    Gains (above ++ [x.name]) x.label fs (fs.put (above ++ [x.name]) x) := by
  obtain ⟨d, hat, hd⟩ := hasDirectory_iff.mp h.isDirectory
  refine ⟨rfl, Entry.gains_alter hat hd hx fun c hc n => ?_, ?_⟩
  · have hfile := hfree c hc
    cases c with
    | file n content => rfl
    | directory d entries => cases hfile
  · rw [← Bool.not_eq_true, hasDirectory_iff]
    rintro ⟨e, he, hdirectory⟩
    rw [hfree e he] at hdirectory
    cases hdirectory

theorem Gains.covers {fs fs' : FileSystem} {names : List String} {shown : String × Option ByteArray}
    (h : Gains names shown fs fs') : fs.Covers fs' := by
  refine ⟨h.working, fun other hother => ?_, fun other hother => ?_⟩
  · have hne : other ≠ names := by
      rintro rfl
      rw [h.notOver] at hother
      cases hother
    have hlabel := h.root.elsewhere other hne
    obtain ⟨e, he, hd⟩ := hasDirectory_iff.mp hother
    rw [he, Option.map_some, Option.map_eq_some_iff] at hlabel
    obtain ⟨e', he', hsame⟩ := hlabel
    exact hasDirectory_iff.mpr ⟨e', he', (Entry.isDirectory_eq_of_label hsame).trans hd⟩
  · by_cases hne : other = names
    · have hthere := congrArg Option.isSome h.root.there
      rw [Option.isSome_map] at hthere
      rw [hne, hthere]
      rfl
    · have hlabel := congrArg Option.isSome (h.root.elsewhere other hne)
      rw [Option.isSome_map, Option.isSome_map] at hlabel
      rwa [hlabel]

/-- Writing a file changes what the path leads to, and nothing else. -/
theorem gains_of_write {fs fs' : FileSystem} {path : String} {content : ByteArray}
    (h : fs.write path content = .ok fs') :
    ∃ before above name, Path.segments path = before ++ [name] ∧ fs.Enters path before above name ∧
      fs'.locate path = .ok (above ++ [name]) ∧
      Gains (above ++ [name]) (name, some content) fs fs' := by
  obtain ⟨before, above, name, hsegments, henters, hfree, rfl⟩ := exists_of_write h
  have hgains : Gains (above ++ [name]) (name, some content) fs
      (fs.put (above ++ [name]) (.file name content)) :=
    Enters.gains (x := .file name content) henters (fun _ => rfl) hfree
  have hcovers := hgains.covers
  refine ⟨before, above, name, hsegments, henters, ?_, hgains⟩
  have henters' : (fs.put (above ++ [name]) (.file name content)).Enters path before above name := by
    refine ⟨henters.accepted, ?_, hcovers.directories _ henters.isDirectory, henters.isName,
      henters.short⟩
    rw [hcovers.start_eq]
    exact hcovers.foldlM_step_ok henters.leads
  refine henters'.locate_ok hsegments ?_
  have hthere := congrArg Option.isSome hgains.root.there
  rwa [Option.isSome_map] at hthere

/-- Making a directory adds it, and changes nothing else. -/
theorem gains_of_makeDirectory {fs fs' : FileSystem} {path : String}
    (h : fs.makeDirectory path = .ok fs') :
    ∃ names name, fs.root.at? names = none ∧ Gains names (name, none) fs fs' := by
  obtain ⟨before, above, name, henters, hfree, rfl⟩ := exists_of_makeDirectory h
  refine ⟨above ++ [name], name, hfree, ?_⟩
  refine Enters.gains (x := .directory name []) henters (fun _ => rfl) fun e he => ?_
  exact absurd (he.symm.trans hfree) (Option.some_ne_none e)

/-- Making a directory makes no file, and changes none. -/
theorem at?_file_iff_of_makeDirectory {fs fs' : FileSystem} {path : String}
    (h : fs.makeDirectory path = .ok fs') {names : List String} {name : String}
    {content : ByteArray} :
    fs'.root.at? names = some (.file name content) ↔
      fs.root.at? names = some (.file name content) := by
  obtain ⟨there, made, hfree, hgains⟩ := gains_of_makeDirectory h
  by_cases hsame : names = there
  · subst hsame
    have hmade := hgains.root.there
    rw [hfree]
    refine iff_of_false (fun hfile => ?_) nofun
    rw [hfile] at hmade
    cases hmade
  · exact Entry.at?_file_congr (hgains.root.elsewhere names hsame)

theorem wellFormed_of_write {fs fs' : FileSystem} {path : String} {content : ByteArray}
    (h : fs.write path content = .ok fs') (hwell : fs.root.WellFormed) : fs'.root.WellFormed := by
  obtain ⟨before, above, name, -, henters, -, rfl⟩ := exists_of_write h
  exact hwell.put (.file name content) henters.isName above

theorem wellFormed_of_makeDirectory {fs fs' : FileSystem} {path : String}
    (h : fs.makeDirectory path = .ok fs') (hwell : fs.root.WellFormed) : fs'.root.WellFormed := by
  obtain ⟨before, above, name, henters, -, rfl⟩ := exists_of_makeDirectory h
  exact hwell.put (x := .directory name []) (.directory name [] .nil nofun nofun) henters.isName above

end CodeSmell.FileSystem
