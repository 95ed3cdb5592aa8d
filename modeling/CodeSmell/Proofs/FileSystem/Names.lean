import CodeSmell.Path
import Mathlib.Data.List.Basic

/-!
# Paths made of names

* `Path.IsName` : what an entry of a directory may be called;
* `segments_intercalate`, `components_ofNames` : a path made of names has these names as its parts;
* `fileName?_ofNames` : the last of them is the name of the file;
* `join_ofNames` : names below a directory go behind those that lead to it.
-/

namespace CodeSmell.Path

/-- What an entry of a directory may be called. -/
structure IsName (name : String) : Prop where
  nonempty : name ≠ ""
  not_here : name ≠ "."
  not_up : name ≠ ".."
  no_slash : '/' ∉ name.toList

instance (name : String) : Decidable (IsName name) :=
  decidable_of_iff (name ≠ "" ∧ name ≠ "." ∧ name ≠ ".." ∧ '/' ∉ name.toList)
    ⟨fun ⟨h₁, h₂, h₃, h₄⟩ => ⟨h₁, h₂, h₃, h₄⟩, fun ⟨h₁, h₂, h₃, h₄⟩ => ⟨h₁, h₂, h₃, h₄⟩⟩

/-! ## Splitting at slashes -/

theorem splitSlash_of_not_mem {cs : List Char} (h : '/' ∉ cs) : splitSlash cs = [cs] := by
  induction cs with
  | nil => rfl
  | cons c rest ih =>
    rw [splitSlash, if_neg (List.ne_of_not_mem_cons h).symm, ih (List.not_mem_of_not_mem_cons h)]

theorem splitSlash_append_slash (cs ds : List Char) :
    splitSlash (cs ++ '/' :: ds) = splitSlash cs ++ splitSlash ds := by
  induction cs with
  | nil => simp [splitSlash]
  | cons c cs ih =>
    rw [List.cons_append, splitSlash, splitSlash, ih]
    by_cases hc : c = '/'
    · rw [if_pos hc, if_pos hc, List.cons_append]
    · rw [if_neg hc, if_neg hc]
      cases hfirst : splitSlash cs with
      | nil => exact absurd hfirst (splitSlash_ne_nil cs)
      | cons first more => rfl

theorem no_slash_of_mem_splitSlash {cs part : List Char} (h : part ∈ splitSlash cs) :
    '/' ∉ part := by
  induction cs generalizing part with
  | nil =>
    rw [splitSlash, List.mem_singleton] at h
    rw [h]
    exact List.not_mem_nil
  | cons c rest ih =>
    rw [splitSlash] at h
    split at h
    · rcases List.mem_cons.mp h with rfl | hpart
      · exact List.not_mem_nil
      · exact ih hpart
    · next hc =>
      split at h
      · next hnil => exact absurd hnil (splitSlash_ne_nil rest)
      · next first more hrest =>
        rw [hrest] at ih
        rcases List.mem_cons.mp h with rfl | hpart
        · exact List.not_mem_cons_of_ne_of_not_mem (Ne.symm hc) (ih List.mem_cons_self)
        · exact ih (List.mem_cons_of_mem first hpart)

theorem segments_ne_nil (path : String) : segments path ≠ [] := by
  simpa [segments] using splitSlash_ne_nil path.toList

theorem no_slash_of_mem_segments {path segment : String} (h : segment ∈ segments path) :
    '/' ∉ segment.toList := by
  obtain ⟨part, hpart, rfl⟩ := List.mem_map.mp h
  rw [String.toList_ofList]
  exact no_slash_of_mem_splitSlash hpart

theorem toList_slash_append (s : String) : ("/" ++ s).toList = '/' :: s.toList := by
  rw [String.toList_append]
  rfl

/-- Names with slashes between them are split into these names. -/
theorem segments_intercalate {names : List String} (hne : names ≠ [])
    (h : ∀ name ∈ names, '/' ∉ name.toList) : segments ("/".intercalate names) = names := by
  induction names with
  | nil => exact absurd rfl hne
  | cons name rest ih =>
    obtain ⟨hname, hrest⟩ := List.forall_mem_cons.mp h
    by_cases hlast : rest = []
    · rw [hlast, String.intercalate_singleton, segments, splitSlash_of_not_mem hname, List.map_cons,
        String.ofList_toList, List.map_nil]
    · have hsplit : ("/".intercalate (name :: rest)).toList =
          name.toList ++ '/' :: ("/".intercalate rest).toList := by
        rw [String.intercalate_cons_of_ne_nil hlast, String.toList_append, String.toList_append,
          List.append_assoc]
        rfl
      rw [segments, hsplit, splitSlash_append_slash, splitSlash_of_not_mem hname, List.singleton_append,
        List.map_cons, String.ofList_toList]
      exact congrArg (name :: ·) (ih hlast hrest)

/-! ## Absolute paths -/

theorem isAbsolute_ofNames (names : List String) : isAbsolute (ofNames names) = true := by
  rw [isAbsolute, ofNames, toList_slash_append]
  rfl

theorem segments_ofNames {names : List String} (hne : names ≠ [])
    (h : ∀ name ∈ names, IsName name) : segments (ofNames names) = "" :: names := by
  rw [segments, ofNames, toList_slash_append, splitSlash, if_pos rfl, List.map_cons]
  exact congrArg ("" :: ·) (segments_intercalate hne fun name hname => (h name hname).no_slash)

theorem component?_of_isName {name : String} (h : IsName name) :
    component? name = some (.name name) := by
  simp [component?, h.nonempty, h.not_here, h.not_up]

/-- The steps of an absolute path made of names. -/
theorem components_ofNames {names : List String} (h : ∀ name ∈ names, IsName name) :
    components (ofNames names) = .root :: names.map .name := by
  have hfirst : firstComponent? (ofNames names) "" = some .root := by
    rw [firstComponent?, if_pos (beq_self_eq_true ""), if_pos (isAbsolute_ofNames names)]
  by_cases hne : names = []
  · subst hne
    rfl
  · have hnames : names.filterMap component? = names.map .name := by
      rw [← List.filterMap_eq_map]
      exact List.filterMap_congr fun name hname => component?_of_isName (h name hname)
    rw [components, segments_ofNames hne h]
    dsimp only
    rw [hfirst, hnames]
    rfl

/-- The last name of a path is the name of what stands there. -/
theorem fileName?_ofNames {names : List String} {name : String}
    (h : ∀ n ∈ names, IsName n) (hlast : names.getLast? = some name) :
    fileName? (ofNames names) = some name := by
  have hne : names ≠ [] := by
    rintro rfl
    cases hlast
  have hstep : (components (ofNames names)).getLast? = some (.name name) := by
    rw [components_ofNames h, List.getLast?_cons_of_ne_nil (by simpa using hne), List.getLast?_map,
      hlast]
    rfl
  rw [fileName?, hstep]

/-! ## Paths below a directory -/

theorem not_isAbsolute_intercalate_cons {name : String} (hname : name ≠ "")
    (hslash : '/' ∉ name.toList) (rest : List String) :
    isAbsolute ("/".intercalate (name :: rest)) = false := by
  have hhead : ("/".intercalate (name :: rest)).toList.head? = name.toList.head? := by
    have hchars : name.toList ≠ [] := mt String.toList_eq_nil_iff.mp hname
    by_cases hlast : rest = []
    · rw [hlast, String.intercalate_singleton]
    · rw [String.intercalate_cons_of_ne_nil hlast, String.toList_append, String.toList_append,
        List.append_assoc, List.head?_append_of_ne_nil _ hchars]
  rw [isAbsolute, hhead, beq_eq_false_iff_ne]
  exact fun hfirst => hslash (List.mem_of_mem_head? hfirst)

theorem not_isAbsolute_intercalate {names : List String} (hne : names ≠ [])
    (h : ∀ name ∈ names, IsName name) : isAbsolute ("/".intercalate names) = false := by
  obtain ⟨name, rest, rfl⟩ := List.exists_cons_of_ne_nil hne
  have hname := h name List.mem_cons_self
  exact not_isAbsolute_intercalate_cons hname.nonempty hname.no_slash rest

/-- Names with slashes between them do not end in a slash. -/
theorem exists_getLast?_intercalate {names : List String} (hne : names ≠ [])
    (h : ∀ name ∈ names, IsName name) :
    ∃ c, c ≠ '/' ∧ ("/".intercalate names).toList.getLast? = some c := by
  induction names with
  | nil => exact absurd rfl hne
  | cons name rest ih =>
    obtain ⟨hname, hrest⟩ := List.forall_mem_cons.mp h
    by_cases hend : rest = []
    · have hchars : name.toList ≠ [] := mt String.toList_eq_nil_iff.mp hname.nonempty
      refine ⟨name.toList.getLast hchars, ?_, ?_⟩
      · exact fun heq => hname.no_slash (heq ▸ List.getLast_mem hchars)
      · rw [hend, String.intercalate_singleton, List.getLast?_eq_some_getLast]
    · obtain ⟨c, hc, hlast⟩ := ih hend hrest
      refine ⟨c, hc, ?_⟩
      rw [String.intercalate_cons_of_ne_nil hend, String.toList_append, List.getLast?_append, hlast]
      rfl

theorem getLast?_toList_ofNames {names : List String} (hne : names ≠ [])
    (h : ∀ name ∈ names, IsName name) : (ofNames names).toList.getLast? ≠ some '/' := by
  obtain ⟨c, hc, hlast⟩ := exists_getLast?_intercalate hne h
  rw [ofNames, String.toList_append, List.getLast?_append, hlast]
  exact fun heq => hc (Option.some.inj heq)

/-- Names below a directory go behind those that lead to it. -/
theorem join_ofNames {above names : List String} (habove : ∀ name ∈ above, IsName name)
    (hne : names ≠ []) (h : ∀ name ∈ names, IsName name) :
    join (ofNames above) ("/".intercalate names) = ofNames (above ++ names) := by
  have hnonempty : (ofNames above).isEmpty = false := by
    rw [← Bool.not_eq_true, String.isEmpty_iff]
    intro hempty
    have hchars := congrArg String.toList hempty
    rw [ofNames, toList_slash_append] at hchars
    cases hchars
  rw [join, not_isAbsolute_intercalate hne h, hnonempty, Bool.false_or, if_neg (by decide)]
  by_cases hroot : above = []
  · subst hroot
    rfl
  · rw [if_neg (by simpa using getLast?_toList_ofNames hroot habove), ofNames, ofNames,
      String.intercalate_append_of_ne_nil hroot hne, String.append_assoc, String.append_assoc,
      String.append_assoc]

end CodeSmell.Path
