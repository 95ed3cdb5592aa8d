import CodeSmell.Proofs.FileSystem.Names

/-!
# Paths below a base

* `Path.IsBelow`, `Path.stepsBelow` : a path has the steps of a base and more; the steps it has more;
* `components_join` : a path seen from a directory has the steps of the directory and then its own;
* `filterMap_dropComponents`, `filterMap_segments_trimmed` : to leave out the first steps of a path, and
  the segments at either end that mean nothing, changes none of the other steps.
-/

namespace CodeSmell.Path

/-- A path is below a base if it has the steps of the base and at least one more. -/
def IsBelow (base path : String) : Prop :=
  components base <+: components path ∧ components path ≠ components base

/-- The steps that lead to a path from a base that it is below. -/
def stepsBelow (base path : String) : List Component :=
  (components path).drop (components base).length

variable {base path directory rest segment : String} {segs : List String}

theorem IsBelow.components_eq (h : IsBelow base path) :
    components path = components base ++ stepsBelow base path :=
  (List.prefix_iff_eq_append.mp h.1).symm

/-! ## Segments -/

theorem segments_append_slash (directory rest : String) :
    segments (directory ++ "/" ++ rest) = segments directory ++ segments rest := by
  have hchars : (directory ++ "/" ++ rest).toList = directory.toList ++ '/' :: rest.toList := by
    rw [String.toList_append, String.toList_append, List.append_assoc]
    rfl
  rw [segments, hchars, splitSlash_append_slash, List.map_append]
  rfl

theorem mem_of_mem_splitSlash {cs part : List Char} (hpart : part ∈ splitSlash cs) {c : Char}
    (hc : c ∈ part) : c ∈ cs := by
  induction cs generalizing part with
  | nil =>
    rw [splitSlash, List.mem_singleton] at hpart
    rwa [hpart] at hc
  | cons x cs ih =>
    rw [splitSlash] at hpart
    split at hpart
    · rcases List.mem_cons.mp hpart with rfl | hpart
      · cases hc
      · exact List.mem_cons_of_mem x (ih hpart hc)
    · split at hpart
      · next hnil => exact absurd hnil (splitSlash_ne_nil cs)
      · next first more hfirst =>
        rw [hfirst] at ih
        rcases List.mem_cons.mp hpart with rfl | hpart
        · rcases List.mem_cons.mp hc with rfl | hc
          · exact List.mem_cons_self
          · exact List.mem_cons_of_mem x (ih List.mem_cons_self hc)
        · exact List.mem_cons_of_mem x (ih (List.mem_cons_of_mem first hpart) hc)

theorem mem_of_mem_segments (hsegment : segment ∈ segments path) {c : Char}
    (hc : c ∈ segment.toList) : c ∈ path.toList := by
  obtain ⟨part, hpart, rfl⟩ := List.mem_map.mp hsegment
  rw [String.toList_ofList] at hc
  exact mem_of_mem_splitSlash hpart hc

theorem segments_head (path : String) : ∃ first later, segments path = first :: later ∧
    (first = "" → path = "" ∨ isAbsolute path = true) := by
  obtain ⟨first, later, hsegments⟩ := List.exists_cons_of_ne_nil (segments_ne_nil path)
  refine ⟨first, later, hsegments, ?_⟩
  rintro rfl
  cases hchars : path.toList with
  | nil => exact .inl (String.toList_eq_nil_iff.mp hchars)
  | cons c cs =>
    by_cases hc : c = '/'
    · right
      rw [isAbsolute, hchars, hc]
      rfl
    · exfalso
      rw [segments, hchars, splitSlash, if_neg hc] at hsegments
      cases hfirst : splitSlash cs with
      | nil => exact splitSlash_ne_nil cs hfirst
      | cons part more =>
        rw [hfirst] at hsegments
        have hempty := congrArg String.toList (List.cons.inj hsegments).1
        rw [String.toList_ofList] at hempty
        cases hempty

/-! ## Steps -/

theorem component?_text {step : Component} (h : component? segment = some step) :
    step.text = segment := by
  unfold component? at h
  split at h
  · cases h
  · split at h
    · next hup =>
      cases h
      exact (beq_iff_eq.mp hup).symm
    · cases h
      rfl

/-- The first segment of a path is a step, whatever it is. -/
theorem isSome_firstComponent? (h : path ≠ "") {first : String} {later : List String}
    (hsegments : segments path = first :: later) : (firstComponent? path first).isSome = true := by
  obtain ⟨first', later', hsegments', hempty⟩ := segments_head path
  obtain ⟨rfl, rfl⟩ := List.cons.inj (hsegments.symm.trans hsegments')
  unfold firstComponent?
  split
  · next hfirst =>
    rw [if_pos ((hempty (beq_iff_eq.mp hfirst)).resolve_left h)]
    rfl
  · split
    · rfl
    · next hnonempty hhere =>
      have hbusy : ¬ (first == "" || first == ".") = true := by
        rw [Bool.or_eq_true, not_or]
        exact ⟨hnonempty, hhere⟩
      rw [component?, if_neg hbusy]
      split <;> rfl

theorem components_ne_nil (h : path ≠ "") : components path ≠ [] := by
  obtain ⟨first, later, hsegments, -⟩ := segments_head path
  obtain ⟨step, hstep⟩ := Option.isSome_iff_exists.mp (isSome_firstComponent? h hsegments)
  rw [components, hsegments]
  simp [hstep]

/-- Each character of a step stands in the path. -/
theorem mem_of_mem_components {step : Component} (hstep : step ∈ components path) {c : Char}
    (hc : c ∈ step.text.toList) : c ∈ path.toList := by
  obtain ⟨first, later, hsegments, -⟩ := segments_head path
  have hmem : first ∈ segments path ∧ later ⊆ segments path := by
    rw [hsegments]
    exact ⟨List.mem_cons_self, List.subset_cons_self first later⟩
  have hname : ∀ {segment}, segment ∈ segments path → component? segment = some step →
      c ∈ path.toList := by
    intro segment hsegment hcomponent
    rw [component?_text hcomponent] at hc
    exact mem_of_mem_segments hsegment hc
  rw [components, hsegments] at hstep
  rcases List.mem_append.mp hstep with hfirst | hlater
  · rw [Option.mem_toList] at hfirst
    unfold firstComponent? at hfirst
    split at hfirst
    · split at hfirst
      · next habsolute =>
        cases hfirst
        rw [List.mem_singleton.mp hc]
        exact List.mem_of_mem_head? (beq_iff_eq.mp habsolute)
      · cases hfirst
    · split at hfirst
      · next hhere =>
        cases hfirst
        rw [beq_iff_eq.mp hhere] at hmem
        exact mem_of_mem_segments hmem.1 hc
      · exact hname hmem.1 hfirst
  · obtain ⟨segment, hsegment, hcomponent⟩ := List.mem_filterMap.mp hlater
    exact hname (hmem.2 hsegment) hcomponent

/-! ## Joining -/

theorem isAbsolute_append_slash (h : directory ≠ "") (rest : String) :
    isAbsolute (directory ++ "/" ++ rest) = isAbsolute directory := by
  have hchars : directory.toList ≠ [] := mt String.toList_eq_nil_iff.mp h
  rw [isAbsolute, isAbsolute, String.toList_append, String.toList_append, List.append_assoc,
    List.head?_append_of_ne_nil _ hchars]

theorem firstComponent?_congr {other : String} (h : isAbsolute path = isAbsolute other)
    (segment : String) : firstComponent? path segment = firstComponent? other segment := by
  rw [firstComponent?, firstComponent?, h]

theorem components_append_slash (h : directory ≠ "") (rest : String) :
    components (directory ++ "/" ++ rest) =
      components directory ++ (segments rest).filterMap component? := by
  obtain ⟨first, later, hsegments, -⟩ := segments_head directory
  rw [components, components, segments_append_slash, hsegments, List.cons_append]
  dsimp only
  rw [firstComponent?_congr (isAbsolute_append_slash h rest), List.filterMap_append,
    List.append_assoc]

theorem components_slash_append (rest : String) :
    components ("/" ++ rest) = .root :: (segments rest).filterMap component? := by
  have hsegments : segments ("/" ++ rest) = "" :: segments rest := segments_append_slash "" rest
  have habsolute : isAbsolute ("/" ++ rest) = true := by
    rw [isAbsolute, toList_slash_append]
    rfl
  rw [components, hsegments]
  dsimp only
  rw [firstComponent?, if_pos (by rfl), if_pos habsolute]
  rfl

/-- A path seen from a directory has the steps of the directory, and then its own. -/
theorem components_join (h : directory ≠ "") (hrest : isAbsolute rest = false) :
    components (join directory rest) =
      components directory ++ (segments rest).filterMap component? := by
  have hnonempty : directory.isEmpty = false := by simpa using h
  rw [join, hrest, hnonempty, Bool.false_or, if_neg (by decide)]
  split
  · next hslash =>
    -- the directory is written with a slash at its end
    obtain ⟨cs, hcs⟩ := List.getLast?_eq_some_iff.mp (beq_iff_eq.mp hslash)
    obtain ⟨stem, rfl⟩ : ∃ stem : String, directory = stem ++ "/" := by
      refine ⟨String.ofList cs, String.toList_injective ?_⟩
      rw [hcs, String.toList_append, String.toList_ofList]
      rfl
    by_cases hstem : stem = ""
    · subst hstem
      exact components_slash_append rest
    · have hempty : (segments "").filterMap component? = [] := rfl
      have hdirectory := components_append_slash hstem ""
      rw [String.append_empty, hempty, List.append_nil] at hdirectory
      rw [components_append_slash hstem, hdirectory]
  · exact components_append_slash h rest

/-! ## Leaving out steps -/

theorem filterMap_dropSteps (n : Nat) (segs : List String) :
    (dropSteps n segs).filterMap component? = (segs.filterMap component?).drop n := by
  fun_induction dropSteps with
  | case1 segs => rfl
  | case2 n => simp
  | case3 n segment rest hidle ih =>
    rw [ih, List.filterMap_cons_none (Option.isNone_iff_eq_none.mp hidle)]
  | case4 n segment rest hidle ih =>
    obtain ⟨step, hstep⟩ := Option.ne_none_iff_exists'.mp (mt Option.isNone_iff_eq_none.mpr hidle)
    rw [ih, List.filterMap_cons_some hstep, List.drop_succ_cons]

theorem filterMap_dropComponents (h : path ≠ "") {n : Nat} (hn : 0 < n) :
    (dropComponents path n).filterMap component? = (components path).drop n := by
  obtain ⟨first, later, hsegments, -⟩ := segments_head path
  obtain ⟨m, rfl⟩ := Nat.exists_eq_succ_of_ne_zero (Nat.ne_of_gt hn)
  have hfirst := isSome_firstComponent? h hsegments
  unfold dropComponents components
  rw [hsegments]
  dsimp only
  rw [if_pos hfirst, filterMap_dropSteps]
  obtain ⟨step, hstep⟩ := Option.isSome_iff_exists.mp hfirst
  rw [hstep, Option.toList_some, List.singleton_append, List.drop_succ_cons]

theorem filterMap_dropWhile_isIdle (segs : List String) :
    (segs.dropWhile isIdle).filterMap component? = segs.filterMap component? := by
  induction segs with
  | nil => rfl
  | cons segment rest ih =>
    by_cases hidle : isIdle segment = true
    · rw [List.dropWhile_cons_of_pos hidle, ih,
        List.filterMap_cons_none (Option.isNone_iff_eq_none.mp hidle)]
    · rw [List.dropWhile_cons_of_neg hidle]

/-- Segments without the idle ones at either end. -/
def kept (segs : List String) : List String :=
  ((segs.dropWhile isIdle).reverse.dropWhile isIdle).reverse

theorem trimmed_eq (segs : List String) : trimmed segs = "/".intercalate (kept segs) :=
  rfl

theorem filterMap_kept (segs : List String) :
    (kept segs).filterMap component? = segs.filterMap component? := by
  rw [kept, List.filterMap_reverse, filterMap_dropWhile_isIdle, List.filterMap_reverse,
    List.reverse_reverse, filterMap_dropWhile_isIdle]

theorem kept_isPrefix (segs : List String) : kept segs <+: segs.dropWhile isIdle := by
  have hsuffix := List.dropWhile_suffix (l := (segs.dropWhile isIdle).reverse) isIdle
  rw [← List.reverse_prefix, List.reverse_reverse] at hsuffix
  exact hsuffix

theorem mem_of_mem_kept (h : segment ∈ kept segs) : segment ∈ segs :=
  (List.dropWhile_suffix isIdle).subset ((kept_isPrefix segs).subset h)

theorem kept_head {first : String} {later : List String} (h : kept segs = first :: later) :
    isIdle first = false := by
  obtain ⟨idle, hsplit⟩ := kept_isPrefix segs
  have hhead := List.head?_dropWhile_not isIdle segs
  rw [← hsplit, h, List.cons_append, List.head?_cons] at hhead
  exact hhead

variable (hslash : ∀ segment ∈ segs, '/' ∉ segment.toList)
include hslash

theorem not_isAbsolute_trimmed : isAbsolute (trimmed segs) = false := by
  rw [trimmed_eq]
  cases hkept : kept segs with
  | nil => rfl
  | cons first later =>
    have hidle := kept_head hkept
    refine not_isAbsolute_intercalate_cons ?_ (hslash first (mem_of_mem_kept ?_)) later
    · rintro rfl
      cases hidle
    · rw [hkept]
      exact List.mem_cons_self

/-- Trimmed segments mean what they meant. -/
theorem filterMap_segments_trimmed :
    (segments (trimmed segs)).filterMap component? = segs.filterMap component? := by
  rw [← filterMap_kept segs, trimmed_eq]
  by_cases hkept : kept segs = []
  · rw [hkept]
    rfl
  · rw [segments_intercalate hkept fun segment hsegment => hslash segment (mem_of_mem_kept hsegment)]

end CodeSmell.Path
