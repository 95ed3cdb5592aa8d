import CodeSmell.Check.Numeral
import Mathlib.Algebra.Order.Field.Basic
import Mathlib.Algebra.Order.Field.Power
import Mathlib.Data.Rat.Cast.Order
import Mathlib.Tactic.IntervalCases
import Mathlib.Tactic.Linarith
import Mathlib.Tactic.NormNum
import Mathlib.Tactic.Positivity
import Mathlib.Tactic.Ring
import Mathlib.Tactic.SplitIfs

/-!
# The nearest binary floating-point number

* `IsBinary64`, `IsNearest` : the finite numbers of 64 bits, and those that are nearest to a value;
* `Adjacent.isNearest_iff` : a number is nearest to what lies between the middles of the gaps around
  it, so that `isNearest_zero_iff` and `isNearest_two_zpow_iff` hold for zero and for powers of two;
* `rounded?_eq_some_iff`, `Decimal.smallValue?_eq_some_iff` : a number in scientific notation is
  taken to a whole number from -2 to 2 if that is nearest to it.
-/

namespace CodeSmell.Numeral

/-- The finite binary floating-point numbers of 64 bits. -/
def IsBinary64 (x : ℚ) : Prop :=
  ∃ m e : ℤ, |m| < 2 ^ 53 ∧ -1074 ≤ e ∧ e ≤ 971 ∧ x = m * 2 ^ e

/-- No number of 64 bits is nearer to the value. If two are nearest, both are. -/
def IsNearest (x v : ℚ) : Prop :=
  IsBinary64 x ∧ ∀ y, IsBinary64 y → |v - x| ≤ |v - y|

theorem isBinary64_intCast {n : ℤ} (h : |n| < 2 ^ 53) : IsBinary64 n :=
  ⟨n, 0, h, by decide, by decide, by rw [zpow_zero, mul_one]⟩

theorem IsBinary64.neg {x : ℚ} : IsBinary64 x → IsBinary64 (-x) := by
  rintro ⟨m, e, hm, hlow, hhigh, rfl⟩
  exact ⟨-m, e, by rwa [abs_neg], hlow, hhigh, by push_cast; ring⟩

theorem IsNearest.neg {x v : ℚ} (h : IsNearest x v) : IsNearest (-x) (-v) := by
  refine ⟨h.1.neg, fun y hy => ?_⟩
  have hle := h.2 (-y) hy.neg
  rwa [show -v - -x = -(v - x) by ring, show -v - y = -(v - -y) by ring, abs_neg, abs_neg]

theorem isNearest_neg_iff {x v : ℚ} : IsNearest (-x) (-v) ↔ IsNearest x v :=
  ⟨fun h => by simpa only [neg_neg] using h.neg, IsNearest.neg⟩

theorem IsBinary64.isNearest_self {x : ℚ} (h : IsBinary64 x) : IsNearest x x :=
  ⟨h, fun y _ => by rw [sub_self, abs_zero]; exact abs_nonneg _⟩

/-! ## Between two neighbours -/

theorem abs_sub_le_abs_sub_iff_of_lt {a b v : ℚ} (h : a < b) :
    |v - b| ≤ |v - a| ↔ a + b ≤ 2 * v := by
  have hsquares : (v - a) ^ 2 - (v - b) ^ 2 = (b - a) * (2 * v - (a + b)) := by ring
  rw [← sq_le_sq, ← sub_nonneg, hsquares, mul_nonneg_iff_of_pos_left (sub_pos.mpr h), sub_nonneg]

theorem abs_sub_le_abs_sub_iff_of_gt {a b v : ℚ} (h : a < b) :
    |v - a| ≤ |v - b| ↔ 2 * v ≤ a + b := by
  have hsquares : (v - b) ^ 2 - (v - a) ^ 2 = (b - a) * (a + b - 2 * v) := by ring
  rw [← sq_le_sq, ← sub_nonneg, hsquares, mul_nonneg_iff_of_pos_left (sub_pos.mpr h), sub_nonneg]

/-- Numbers of 64 bits with no other between them. -/
structure Adjacent (a b : ℚ) : Prop where
  lower : IsBinary64 a
  upper : IsBinary64 b
  lt : a < b
  apart : ∀ x, IsBinary64 x → x ≤ a ∨ b ≤ x

theorem Adjacent.neg {a b : ℚ} (h : Adjacent a b) : Adjacent (-b) (-a) where
  lower := h.upper.neg
  upper := h.lower.neg
  lt := neg_lt_neg h.lt
  apart x hx := (h.apart (-x) hx.neg).symm.imp (by intro; linarith) (by intro; linarith)

/-- A number is nearest to what lies between the middles of the gaps around it. -/
theorem Adjacent.isNearest_iff {a x b v : ℚ} (hbelow : Adjacent a x) (habove : Adjacent x b) :
    IsNearest x v ↔ a + x ≤ 2 * v ∧ 2 * v ≤ x + b := by
  constructor
  · rintro ⟨-, hnearest⟩
    exact ⟨(abs_sub_le_abs_sub_iff_of_lt hbelow.lt).mp (hnearest a hbelow.lower),
      (abs_sub_le_abs_sub_iff_of_gt habove.lt).mp (hnearest b habove.upper)⟩
  · rintro ⟨hlow, hhigh⟩
    refine ⟨hbelow.upper, fun y hy => ?_⟩
    rcases lt_trichotomy y x with hlt | rfl | hgt
    · have hle : y ≤ a := (hbelow.apart y hy).resolve_right (not_le.mpr hlt)
      exact (abs_sub_le_abs_sub_iff_of_lt hlt).mpr (by linarith)
    · exact le_rfl
    · have hle : b ≤ y := (habove.apart y hy).resolve_left (not_le.mpr hgt)
      exact (abs_sub_le_abs_sub_iff_of_gt hgt).mpr (by linarith)

/-! ## The gaps -/

theorem exists_multiple_of_le (m : ℤ) {k e : ℤ} (h : k ≤ e) :
    ∃ n : ℤ, (m : ℚ) * 2 ^ e = n * 2 ^ k := by
  obtain ⟨i, rfl⟩ := Int.le.dest h
  refine ⟨m * 2 ^ i, ?_⟩
  rw [zpow_add₀ two_ne_zero, zpow_natCast]
  push_cast
  ring

/-- Two multiples of a power of two that follow on each other are adjacent, if they have 53 bits or
the power is the least one. -/
theorem adjacent_multiples {n k : ℤ} (hlow : -1074 ≤ k) (hhigh : k < 971) (hn : 0 ≤ n)
    (hbits : n < 2 ^ 53) (hfull : 2 ^ 52 ≤ n ∨ k = -1074) :
    Adjacent (n * 2 ^ k) ((n + 1) * 2 ^ k) := by
  have hpos : (0 : ℚ) < 2 ^ k := by positivity
  refine ⟨⟨n, k, by rwa [abs_of_nonneg hn], hlow, hhigh.le, rfl⟩, ?_, ?_, ?_⟩
  · rcases (Int.add_one_le_iff.mpr hbits).lt_or_eq with hlt | heq
    · refine ⟨n + 1, k, by rwa [abs_of_nonneg (by omega)], hlow, hhigh.le, by push_cast; rfl⟩
    · -- the greatest mantissa is followed by the least one of the next power
      refine ⟨2 ^ 52, k + 1, by decide, by omega, by omega, ?_⟩
      have hcast : (n : ℚ) + 1 = 2 ^ 53 := by exact_mod_cast heq
      rw [hcast, zpow_add_one₀ two_ne_zero]
      push_cast
      ring
  · exact mul_lt_mul_of_pos_right (lt_add_one _) hpos
  · rintro x ⟨m, e, hm, hleast, -, rfl⟩
    rcases lt_or_ge e k with hlt | hge
    · left
      have hn' : 2 ^ 52 ≤ n := hfull.resolve_right (by omega)
      have hm' : (m : ℚ) ≤ 2 ^ 53 := by exact_mod_cast (abs_lt.mp hm).2.le
      calc (m : ℚ) * 2 ^ e ≤ 2 ^ 53 * 2 ^ e := by gcongr
        _ ≤ 2 ^ 53 * 2 ^ (k - 1) := by
          gcongr
          · norm_num
          · omega
        _ = 2 ^ 52 * 2 ^ k := by rw [zpow_sub_one₀ two_ne_zero]; ring
        _ ≤ n * 2 ^ k := by gcongr; exact_mod_cast hn'
    · obtain ⟨i, hi⟩ := exists_multiple_of_le m hge
      rw [hi]
      rcases le_or_gt i n with hle | hgt
      · left
        gcongr
      · right
        gcongr
        exact_mod_cast hgt

theorem isNearest_zero_iff {v : ℚ} (h : 0 ≤ v) : IsNearest 0 v ↔ v * 2 ^ 1075 ≤ 1 := by
  have habove : Adjacent 0 (2 ^ (-1074 : ℤ)) := by
    simpa using adjacent_multiples (n := 0) (k := -1074) (by decide) (by decide) (by decide)
      (by decide) (.inr rfl)
  have hbelow : Adjacent (-2 ^ (-1074 : ℤ)) 0 := by simpa using habove.neg
  have hpos : (0 : ℚ) < 2 ^ (-1074 : ℤ) := habove.lt
  have hscale : (2 : ℚ) ^ 1075 = 2 / 2 ^ (-1074 : ℤ) := by
    rw [zpow_neg, div_inv_eq_mul, ← zpow_one_add₀ two_ne_zero]
    rfl
  rw [hbelow.isNearest_iff habove, and_iff_right (by linarith), hscale, zero_add, mul_div_assoc',
    div_le_one hpos, mul_comm]

/-- The gap above a power of two is twice as wide as the one below. -/
theorem isNearest_two_zpow_iff {j : ℤ} (hlow : -1021 ≤ j) (hhigh : j < 1023) {v : ℚ} :
    IsNearest (2 ^ j) (v * 2 ^ j) ↔ 2 ^ 54 - 1 ≤ v * 2 ^ 54 ∧ v * 2 ^ 53 ≤ 2 ^ 53 + 1 := by
  have hpos : (0 : ℚ) < 2 ^ j := by positivity
  have hdown (i : ℕ) : (2 : ℚ) ^ (j - i) = 2 ^ j / 2 ^ i := by
    rw [zpow_sub₀ two_ne_zero, zpow_natCast]
  have hbelow : Adjacent ((2 ^ 53 - 1) / 2 ^ 53 * 2 ^ j) (2 ^ j) := by
    convert adjacent_multiples (n := 2 ^ 53 - 1) (k := j - (53 : ℕ)) (by omega) (by omega)
      (by decide) (by decide) (.inl (by decide)) using 1 <;> rw [hdown] <;> push_cast <;> ring
  have habove : Adjacent (2 ^ j) ((2 ^ 52 + 1) / 2 ^ 52 * 2 ^ j) := by
    convert adjacent_multiples (n := 2 ^ 52) (k := j - (52 : ℕ)) (by omega) (by omega)
      (by decide) (by decide) (.inl (by decide)) using 1 <;> rw [hdown] <;> push_cast <;> ring
  have hleft : (2 ^ 53 - 1) / 2 ^ 53 * 2 ^ j + 2 ^ j = (2 ^ 54 - 1) / 2 ^ 53 * (2 : ℚ) ^ j := by
    ring
  have hright : 2 ^ j + (2 ^ 52 + 1) / 2 ^ 52 * 2 ^ j = (2 ^ 53 + 1) / 2 ^ 52 * (2 : ℚ) ^ j := by
    ring
  rw [hbelow.isNearest_iff habove, hleft, hright, ← mul_assoc, mul_le_mul_iff_left₀ hpos,
    mul_le_mul_iff_left₀ hpos, div_le_iff₀ (by positivity), le_div_iff₀ (by positivity),
    show 2 * v * 2 ^ 53 = v * 2 ^ 54 by ring, show 2 * v * 2 ^ 52 = v * 2 ^ 53 by ring]

theorem isNearest_one_iff {v : ℚ} :
    IsNearest 1 v ↔ 2 ^ 54 - 1 ≤ v * 2 ^ 54 ∧ v * 2 ^ 53 ≤ 2 ^ 53 + 1 := by
  simpa using isNearest_two_zpow_iff (j := 0) (by decide) (by decide) (v := v)

theorem isNearest_two_iff {v : ℚ} :
    IsNearest 2 v ↔ 2 ^ 54 - 1 ≤ v * 2 ^ 53 ∧ v * 2 ^ 52 ≤ 2 ^ 53 + 1 := by
  have h := isNearest_two_zpow_iff (j := 1) (by decide) (by decide) (v := v / 2)
  rwa [zpow_one, div_mul_cancel₀ v two_ne_zero, show v / 2 * 2 ^ 54 = v * 2 ^ 53 by ring,
    show v / 2 * 2 ^ 53 = v * 2 ^ 52 by ring] at h

/-! ## Small whole numbers -/

theorem isNearest_self {n : ℤ} (hn : n.natAbs ≤ 2) : IsNearest n n :=
  (isBinary64_intCast (by rw [abs_lt]; omega)).isNearest_self

/-- A small whole number is nearest to nothing that is far from it, since there are numbers of 64
bits 2^-51 above it and below it. -/
theorem IsNearest.abs_sub_le {n : ℤ} {v : ℚ} (h : IsNearest n v) (hn : n.natAbs ≤ 2) :
    |v - n| ≤ 1 / 2 ^ 52 := by
  have hstep : ∀ i : ℤ, |i| ≤ 1 → IsBinary64 (n + i / 2 ^ 51) := fun i hi => by
    obtain ⟨hlow, hhigh⟩ := abs_le.mp hi
    refine ⟨2 ^ 51 * n + i, -51, by rw [abs_lt]; omega, by decide, by decide, ?_⟩
    push_cast
    ring
  have hmore := h.2 _ (hstep 1 (by decide))
  have hless := h.2 _ (hstep (-1) (by decide))
  rw [abs_sub_le_abs_sub_iff_of_gt (by norm_num)] at hmore
  rw [abs_sub_le_abs_sub_iff_of_lt (by norm_num)] at hless
  push_cast at hmore hless
  rw [abs_le]
  constructor <;> linarith

theorem IsNearest.nonneg {n : ℤ} {v : ℚ} (h : IsNearest n v) (hn : n.natAbs ≤ 2) (hv : 0 ≤ v) :
    0 ≤ n := by
  obtain ⟨-, hhigh⟩ := abs_le.mp (h.abs_sub_le hn)
  have hgt : (-1 : ℚ) < n := by linarith
  have hgt' : -1 < n := by exact_mod_cast hgt
  omega

theorem eq_of_isNearest {m n : ℤ} {v : ℚ} (hm : m.natAbs ≤ 2) (hn : n.natAbs ≤ 2)
    (h : IsNearest m v) (h' : IsNearest n v) : m = n := by
  obtain ⟨hlow, hhigh⟩ := abs_le.mp (h.abs_sub_le hm)
  obtain ⟨hlow', hhigh'⟩ := abs_le.mp (h'.abs_sub_le hn)
  have hlt : (m : ℚ) < n + 1 := by linarith
  have hgt : (n : ℚ) < m + 1 := by linarith
  norm_cast at hlt hgt
  omega

/-! ## What a fraction is taken to -/

/-- At most one of 0, 1 and 2 is nearest, so that the order in which they are tried is all one. -/
theorem some_eq_some_iff {i k : ℕ} {v : ℚ} (hi : i ≤ 2) (h : IsNearest i v) :
    some i = some k ↔ k ≤ 2 ∧ IsNearest k v := by
  constructor
  · rintro ⟨⟩
    exact ⟨hi, h⟩
  · rintro ⟨hk, h'⟩
    have heq : (i : ℤ) = k := eq_of_isNearest (by omega) (by omega) h h'
    rw [Int.natCast_inj.mp heq]

theorem le_iff_div_mul_le {n d a b : ℕ} (hd : 0 < d) : n * b ≤ d * a ↔ (n : ℚ) / d * b ≤ a := by
  rw [div_mul_eq_mul_div, div_le_iff₀' (Nat.cast_pos.mpr hd)]
  norm_cast

theorem le_iff_le_div_mul {n d a b : ℕ} (hd : 0 < d) : d * a ≤ n * b ↔ (a : ℚ) ≤ n / d * b := by
  rw [div_mul_eq_mul_div, le_div_iff₀' (Nat.cast_pos.mpr hd)]
  norm_cast

theorem rounded?_eq_some_iff {n d k : ℕ} (hd : 0 < d) :
    rounded? n d = some k ↔ k ≤ 2 ∧ IsNearest k (n / d) := by
  have hscaled (e : ℕ) : n * Nat.pow 2 e ≤ d ↔ (n : ℚ) / d * 2 ^ e ≤ 1 := by
    rw [div_mul_eq_mul_div, div_le_one (Nat.cast_pos.mpr hd)]
    norm_cast
  have hzero : IsNearest 0 (n / d) ↔ (n : ℚ) / d * 2 ^ 1075 ≤ 1 :=
    isNearest_zero_iff (by positivity)
  have hone : (d * (Nat.pow 2 54 - 1) ≤ n * Nat.pow 2 54 &&
      n * Nat.pow 2 53 ≤ d * (Nat.pow 2 53 + 1)) = true ↔ IsNearest 1 (n / d) := by
    rw [isNearest_one_iff, Bool.and_eq_true, decide_eq_true_iff, decide_eq_true_iff,
      le_iff_div_mul_le hd, le_iff_le_div_mul hd]
    norm_num
  have htwo : (d * (Nat.pow 2 54 - 1) ≤ n * Nat.pow 2 53 &&
      n * Nat.pow 2 52 ≤ d * (Nat.pow 2 53 + 1)) = true ↔ IsNearest 2 (n / d) := by
    rw [isNearest_two_iff, Bool.and_eq_true, decide_eq_true_iff, decide_eq_true_iff,
      le_iff_div_mul_le hd, le_iff_le_div_mul hd]
    norm_num
  unfold rounded?
  simp only [hscaled]
  split_ifs with h₀ h₁ h₂
  · exact some_eq_some_iff (by decide) (by exact_mod_cast hzero.mpr h₀)
  · exact some_eq_some_iff (by decide) (by exact_mod_cast hone.mp h₁)
  · exact some_eq_some_iff (by decide) (by exact_mod_cast htwo.mp h₂)
  · refine iff_of_false nofun ?_
    rintro ⟨hk, h⟩
    interval_cases k
    · exact h₀ (hzero.mp (by exact_mod_cast h))
    · exact h₁ (hone.mpr (by exact_mod_cast h))
    · exact h₂ (htwo.mpr (by exact_mod_cast h))

/-! ## Numbers in scientific notation -/

namespace Decimal

def value (d : Decimal) : ℚ :=
  (if d.negative then -1 else 1) * (d.mantissa * 10 ^ d.exponent)

theorem lt_pow_length_toDigits (n : ℕ) : n < 10 ^ (Nat.toDigits 10 n).length :=
  (Nat.length_toDigits_le_iff (by decide) (List.length_pos_iff.mpr Nat.toDigits_ne_nil)).mp le_rfl

theorem pow_le_of_length_toDigits {n i : ℕ} (hn : n ≠ 0)
    (h : (Nat.toDigits 10 n).length = i + 1) : 10 ^ i ≤ n := by
  by_contra hlt
  rcases Nat.eq_zero_or_pos i with rfl | hpos
  · omega
  · have hle := (Nat.length_toDigits_le_iff (by decide) hpos).mpr (not_le.mp hlt)
    omega

/-- A number of so few digits is taken to zero. -/
theorem isNearest_zero_of_digits {m : ℕ} {e : ℤ} (h : (Nat.toDigits 10 m).length + e < -400) :
    IsNearest 0 (m * 10 ^ e) := by
  have hm : (m : ℚ) ≤ 10 ^ (Nat.toDigits 10 m).length := by
    exact_mod_cast (lt_pow_length_toDigits m).le
  rw [isNearest_zero_iff (by positivity)]
  calc (m : ℚ) * 10 ^ e * 2 ^ 1075
      ≤ 10 ^ (Nat.toDigits 10 m).length * 10 ^ e * 2 ^ 1075 := by gcongr
    _ = 10 ^ ((Nat.toDigits 10 m).length + e) * 2 ^ 1075 := by
        rw [zpow_add₀ (by norm_num), zpow_natCast]
    _ ≤ 10 ^ (-400 : ℤ) * (2 ^ 3) ^ 400 := by
        rw [← pow_mul]
        gcongr
        · norm_num
        · norm_num
        · norm_num
    _ ≤ 10 ^ (-400 : ℤ) * 10 ^ 400 := by
        gcongr
        norm_num
    _ = 1 := by
        rw [← zpow_natCast, ← zpow_add₀ (by norm_num)]
        rfl

/-- A number of so many digits is taken to no small whole number. -/
theorem not_isNearest_of_digits {m k : ℕ} {e : ℤ} (hm : m ≠ 0) (hk : k ≤ 2)
    (h : 400 < (Nat.toDigits 10 m).length + e) : ¬ IsNearest k (m * 10 ^ e) := by
  obtain ⟨i, hi⟩ : ∃ i, (Nat.toDigits 10 m).length = i + 1 :=
    Nat.exists_eq_add_one.mpr (List.length_pos_iff.mpr Nat.toDigits_ne_nil)
  have hm' : (10 : ℚ) ^ i ≤ m := by exact_mod_cast pow_le_of_length_toDigits hm hi
  have hlarge : (10 : ℚ) ≤ m * 10 ^ e := by
    calc (10 : ℚ) = 10 ^ (1 : ℤ) := (zpow_one _).symm
      _ ≤ 10 ^ (i + e) := by
          gcongr
          · norm_num
          · omega
      _ = 10 ^ i * 10 ^ e := by rw [zpow_add₀ (by norm_num), zpow_natCast]
      _ ≤ m * 10 ^ e := by gcongr
  intro hnearest
  have habs := (IsNearest.abs_sub_le (n := k) (by exact_mod_cast hnearest) (by omega))
  have hk' : ((k : ℤ) : ℚ) ≤ 2 := by exact_mod_cast hk
  have hnear := (abs_le.mp habs).2
  linarith

theorem magnitude?_eq_some_iff {d : Decimal} {k : ℕ} :
    d.magnitude? = some k ↔ k ≤ 2 ∧ IsNearest k (d.mantissa * 10 ^ d.exponent) := by
  unfold magnitude?
  dsimp only
  split_ifs with hm hfew hmany hwhole
  · refine some_eq_some_iff (by decide) ?_
    rw [hm, Nat.cast_zero, zero_mul]
    exact isNearest_self (n := 0) (by decide)
  · exact some_eq_some_iff (by decide) (isNearest_zero_of_digits hfew)
  · exact iff_of_false nofun fun ⟨hk, h⟩ => not_isNearest_of_digits hm hk hmany h
  · obtain ⟨i, hi⟩ := Int.eq_ofNat_of_zero_le hwhole
    rw [rounded?_eq_some_iff (by decide), hi]
    simp
  · obtain ⟨i, hi⟩ : ∃ i : ℕ, d.exponent = -i := ⟨(-d.exponent).toNat, by omega⟩
    have hpos : 0 < Nat.pow 10 i := Nat.pow_pos (by decide)
    rw [hi, neg_neg, Int.toNat_natCast, rounded?_eq_some_iff hpos]
    simp [div_eq_mul_inv]

/-- A magnitude is not taken to a negative number. -/
theorem map_magnitude?_eq_some_iff {d : Decimal} {n : ℤ} :
    d.magnitude?.map Nat.cast = some n ↔
      n.natAbs ≤ 2 ∧ IsNearest n (d.mantissa * 10 ^ d.exponent) := by
  rw [Option.map_eq_some_iff]
  constructor
  · rintro ⟨k, hk, rfl⟩
    obtain ⟨hle, h⟩ := magnitude?_eq_some_iff.mp hk
    exact ⟨hle, by exact_mod_cast h⟩
  · rintro ⟨hle, h⟩
    have hvalue : (0 : ℚ) ≤ d.mantissa * 10 ^ d.exponent := by positivity
    obtain ⟨k, rfl⟩ := Int.eq_ofNat_of_zero_le (h.nonneg hle hvalue)
    exact ⟨k, magnitude?_eq_some_iff.mpr ⟨hle, by exact_mod_cast h⟩, rfl⟩

/-- What a number is taken to, if that is a whole number from -2 to 2. -/
theorem smallValue?_eq_some_iff {d : Decimal} {n : ℤ} :
    d.smallValue? = some n ↔ n.natAbs ≤ 2 ∧ IsNearest n d.value := by
  have hsign : d.smallValue? =
      (d.magnitude?.map Nat.cast).map fun n : ℤ => if d.negative then -n else n := by
    unfold smallValue?
    cases d.magnitude? <;> rfl
  rw [hsign, value]
  cases d.negative with
  | false =>
    rw [if_neg (by decide), one_mul, ← map_magnitude?_eq_some_iff]
    exact Eq.congr_left (congrFun Option.map_id _)
  | true =>
    rw [if_pos rfl, neg_one_mul, ← isNearest_neg_iff, neg_neg, ← Int.cast_neg, ← Int.natAbs_neg,
      ← map_magnitude?_eq_some_iff]
    cases d.magnitude? with
    | none => simp
    | some k => simp [neg_eq_iff_eq_neg]

end Decimal

end CodeSmell.Numeral
