import CodeSmell.Project.Index
import Mathlib.Data.List.TakeWhile

/-!
# The last dot

* `splitLastDot?_eq_some_iff` : a text is split where no dot follows, and it is split if there is a dot
  in it (`isSome_splitLastDot?_iff`);
* `Path.nameExtension?_eq_some_iff` : the extension of a file name stands behind the last dot, and
  something stands before that.
-/

namespace CodeSmell

/-- A list is cut in front of the first `c`. -/
theorem cut_iff {c : Char} {cs before behind : List Char} :
    cs.takeWhile (· != c) = before ∧ cs.dropWhile (· != c) = c :: behind ↔
      cs = before ++ c :: behind ∧ c ∉ before := by
  constructor
  · rintro ⟨rfl, hdrop⟩
    refine ⟨?_, fun hc => ?_⟩
    · rw [← hdrop, List.takeWhile_append_dropWhile]
    · have hne := List.mem_takeWhile_imp (p := (· != c)) hc
      exact bne_iff_ne.mp hne rfl
  · rintro ⟨rfl, hc⟩
    have hbefore : ∀ x ∈ before, (x != c) = true := fun x hx =>
      bne_iff_ne.mpr fun heq => hc (heq ▸ hx)
    rw [List.takeWhile_append_of_pos hbefore, List.dropWhile_append_of_pos hbefore,
      List.takeWhile_cons_of_neg (by simp), List.dropWhile_cons_of_neg (by simp), List.append_nil]
    exact ⟨rfl, rfl⟩

theorem eq_of_dropWhile_eq_cons {c d : Char} {cs behind : List Char}
    (h : cs.dropWhile (· != c) = d :: behind) : d = c := by
  have hhead := List.head?_dropWhile_not (· != c) cs
  rw [h] at hhead
  simpa using hhead

/-- A list is cut at the last `c` by looking at it from its end. -/
theorem cut_reverse_iff {c : Char} {cs before behind : List Char} :
    cs.reverse.takeWhile (· != c) = behind.reverse ∧
        cs.reverse.dropWhile (· != c) = c :: before.reverse ↔
      cs = before ++ c :: behind ∧ c ∉ behind := by
  rw [cut_iff, List.mem_reverse, ← List.reverse_inj, List.reverse_reverse]
  simp only [List.reverse_append, List.reverse_cons, List.reverse_reverse, List.append_assoc,
    List.singleton_append]

/-- A text is split at the last dot: none follows. -/
theorem splitLastDot?_eq_some_iff {s before behind : String} :
    splitLastDot? s = some (before, behind) ↔
      s = before ++ "." ++ behind ∧ '.' ∉ behind.toList := by
  have htext : s = before ++ "." ++ behind ↔
      s.toList = before.toList ++ '.' :: behind.toList := by
    rw [← String.toList_inj, String.toList_append, String.toList_append, List.append_assoc]
    rfl
  rw [htext, ← cut_reverse_iff]
  unfold splitLastDot?
  dsimp only
  split
  · next hdrop => simp [hdrop]
  · next d rest hdrop =>
    obtain rfl := eq_of_dropWhile_eq_cons hdrop
    rw [hdrop, Option.some_inj, Prod.mk.injEq, ← String.toList_inj, ← String.toList_inj,
      String.toList_ofList, String.toList_ofList, List.cons.injEq, and_comm,
      List.reverse_eq_iff, List.reverse_eq_iff]
    simp only [true_and]

theorem isSome_splitLastDot?_iff {s : String} :
    (splitLastDot? s).isSome = true ↔ '.' ∈ s.toList := by
  unfold splitLastDot?
  dsimp only
  split
  · next hnone =>
    refine iff_of_false nofun fun hdot => ?_
    have hplain := List.dropWhile_eq_nil_iff.mp hnone '.' (List.mem_reverse.mpr hdot)
    exact absurd hplain (by decide)
  · next d rest hdrop =>
    obtain rfl := eq_of_dropWhile_eq_cons hdrop
    refine iff_of_true rfl (List.mem_reverse.mp ?_)
    exact (List.dropWhile_suffix _).subset (hdrop ▸ List.mem_cons_self)

namespace Path

theorem nameExtension?_eq (name : String) :
    nameExtension? name = ((splitLastDot? name).filter (·.1 != "")).map (·.2) := by
  unfold nameExtension? splitLastDot?
  dsimp only
  generalize name.toList.reverse.dropWhile (· != '.') = found
  cases found with
  | nil => rfl
  | cons d rest =>
    have hempty : rest.isEmpty = true ↔ String.ofList rest.reverse = "" := by
      rw [List.isEmpty_iff, ← String.toList_inj, String.toList_ofList]
      exact List.reverse_eq_nil_iff.symm
    dsimp only
    rw [Option.filter_some]
    by_cases hrest : rest.isEmpty = true
    · rw [if_pos hrest, if_neg (by simp [hempty.mp hrest]), Option.map_none]
    · rw [if_neg hrest, if_pos (bne_iff_ne.mpr (mt hempty.mpr hrest)), Option.map_some]

/-- An extension stands behind the last dot of a name that has something before it. -/
theorem nameExtension?_eq_some_iff {name extension : String} :
    nameExtension? name = some extension ↔
      ∃ stem, stem ≠ "" ∧ name = stem ++ "." ++ extension ∧ '.' ∉ extension.toList := by
  simp only [nameExtension?_eq, Option.map_eq_some_iff, Option.filter_eq_some_iff, bne_iff_ne,
    Prod.exists, splitLastDot?_eq_some_iff]
  constructor
  · rintro ⟨stem, _, ⟨hsplit, hstem⟩, rfl⟩
    exact ⟨stem, hstem, hsplit⟩
  · rintro ⟨stem, hstem, hsplit⟩
    exact ⟨stem, extension, ⟨hsplit, hstem⟩, rfl⟩

end Path

end CodeSmell
