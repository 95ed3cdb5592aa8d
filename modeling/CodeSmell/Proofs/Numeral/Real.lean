import CodeSmell.Check.MagicNumber
import CodeSmell.Proofs.Numeral.Digits
import CodeSmell.Proofs.Numeral.Nearest
import Mathlib.Tactic.FieldSimp

/-!
# Real numbers in the source

* `Scientific`, `RealLiteral` : the ways to write a number in decimal digits, maybe with a fraction,
  an exponent, a sign and a letter for its type, and the number;
* `Scientific.parse?_plain` : what counts of it is read as a mantissa and a power of ten of the same
  value;
* `RealLiteral.smallValue?_text` : it is taken to a whole number from -2 to 2 if that is nearest;
* `real_literals_rounded` : it is common if and only if one of the common values is nearest to it,
  so that one of them with a late digit is common as well (`lateDigit_common`).
-/

namespace CodeSmell.Numeral

/-- A power of ten: its letter, a sign if there is one (`true` for a minus), and digits. -/
structure Exponent where
  capital : Bool
  sign : Option Bool
  digits : Digits 10

namespace Exponent

def signText (e : Exponent) : List Char :=
  match e.sign with
  | some true => ['-']
  | some false => ['+']
  | none => []

def text (e : Exponent) : List Char :=
  (if e.capital then 'E' else 'e') :: (e.signText ++ e.digits.text)

/-- What counts of the power. -/
def plain (e : Exponent) : List Char :=
  'e' :: (e.signText ++ e.digits.plain)

def value (e : Exponent) : ℤ :=
  if e.sign = some true then -e.digits.value else e.digits.value

theorem mem_signText {e : Exponent} {c : Char} (h : c ∈ e.signText) : c ∈ ['.', 'e', '-', '+'] := by
  unfold signText at h
  split at h
  · rw [List.mem_singleton.mp h]
    decide
  · rw [List.mem_singleton.mp h]
    decide
  · cases h

theorem normalized_text (e : Exponent) : normalized e.text = e.plain := by
  have hletter : normalized [if e.capital then 'E' else 'e'] = ['e'] := by
    cases e.capital <;> decide
  have hsign : normalized e.signText = e.signText := by
    unfold signText
    split <;> decide
  rw [text, ← List.singleton_append, normalized_append, normalized_append, hletter, hsign,
    e.digits.normalized_text (by decide)]
  rfl

end Exponent

theorem normalized_elim {α : Type} (o : Option α) {f g : α → List Char}
    (h : ∀ a, normalized (f a) = g a) : normalized (o.elim [] f) = o.elim [] g := by
  cases o with
  | none => rfl
  | some a => exact h a

/-- A number in decimal digits without a sign in front. Digits may be missing on one side of the
point. -/
structure Scientific where
  whole : Option (Digits 10)
  fraction : Option (Digits 10)
  exponent : Option Exponent
  written : whole.isSome ∨ fraction.isSome

namespace Scientific

def text (s : Scientific) : List Char :=
  s.whole.elim [] (·.text) ++ (s.fraction.elim [] ('.' :: ·.text) ++ s.exponent.elim [] (·.text))

/-- What counts of the number. -/
def plain (s : Scientific) : List Char :=
  s.whole.elim [] (·.plain) ++ (s.fraction.elim [] ('.' :: ·.plain) ++ s.exponent.elim [] (·.plain))

/-- The number in front of the point. -/
def wholeValue (s : Scientific) : ℕ :=
  s.whole.elim 0 (·.value)

/-- What stands behind the point adds. -/
def fractionValue (s : Scientific) : ℚ :=
  match s.fraction with
  | some ds => ds.value / 10 ^ ds.all.length
  | none => 0

def power (s : Scientific) : ℤ :=
  s.exponent.elim 0 (·.value)

def value (s : Scientific) : ℚ :=
  (s.wholeValue + s.fractionValue) * 10 ^ s.power

theorem normalized_text (s : Scientific) : normalized s.text = s.plain := by
  have hwhole := normalized_elim s.whole fun ds => ds.normalized_text (by decide)
  have hfraction := normalized_elim s.fraction fun ds =>
    (normalized_cons_of_ne (by decide : '.' ≠ '_') ds.text).trans
      (congrArg ('.' :: ·) (ds.normalized_text (by decide)))
  have hexponent := normalized_elim s.exponent Exponent.normalized_text
  rw [text, normalized_append, normalized_append, hwhole, hfraction, hexponent]
  rfl

end Scientific

/-! ## What a number is read as -/

theorem mem_elim_nil {α β : Type} {o : Option α} {f : α → List β} {b : β} :
    b ∈ o.elim [] f ↔ ∃ a, o = some a ∧ b ∈ f a := by
  cases o with
  | none => simp
  | some a => simp

/-- No sign is taken off in front of digits. -/
theorem signed_digits {digits rest : List Char} (hdigits : ∀ c ∈ digits, c.isDigit = true)
    (hrest : ∀ c ∈ rest.head?, c ≠ '-' ∧ c ≠ '+') :
    signed (digits ++ rest) = (false, digits ++ rest) := by
  have hhead : ∀ c ∈ (digits ++ rest).head?, c ≠ '-' ∧ c ≠ '+' := by
    cases digits with
    | nil => exact hrest
    | cons d digits =>
      have hd := hdigits d List.mem_cons_self
      rintro c ⟨⟩
      constructor
      · rintro rfl
        cases hd
      · rintro rfl
        cases hd
  unfold signed
  split
  · next h => exact absurd rfl (hhead '-' (by rw [h]; rfl)).1
  · next h => exact absurd rfl (hhead '+' (by rw [h]; rfl)).2
  · rfl

theorem exponent?_plain (e : Exponent) : exponent? e.plain = some e.value := by
  have hdigits : ∀ c ∈ e.digits.plain, c.isDigit = true := fun c => Digits.isDigit_of_mem_plain
  have hsigned : signed (e.signText ++ e.digits.plain) = (e.sign == some true, e.digits.plain) := by
    unfold Exponent.signText
    split
    · next h => rw [h]; rfl
    · next h => rw [h]; rfl
    · next h =>
      have hnone : ∀ c ∈ ([] : List Char).head?, c ≠ '-' ∧ c ≠ '+' := nofun
      rw [h]
      simpa using signed_digits hdigits hnone
  have hguard : (e.digits.plain.isEmpty || !e.digits.plain.all Char.isDigit) = false := by
    rw [List.all_eq_true.mpr hdigits]
    rfl
  rw [Exponent.plain, exponent?]
  simp only [hsigned, hguard, digitsValue_plain]
  unfold Exponent.value
  by_cases h : e.sign = some true
  · rw [h]
    rfl
  · rw [if_neg h, beq_false_of_ne h]
    rfl

/-- Behind a mantissa stands the letter of a power, or nothing. -/
theorem head_of_exponent? {cs : List Char} {e : ℤ} (h : exponent? cs = some e) :
    ∀ c ∈ cs.head?, c = 'e' := by
  unfold exponent? at h
  split at h
  · exact nofun
  · rintro c ⟨⟩
    rfl
  · cases h

section Parse

variable {whole fraction rest : List Char} {e : ℤ} (hwhole : ∀ c ∈ whole, c.isDigit = true)
  (hexponent : exponent? rest = some e)
include hwhole hexponent

theorem parse?_whole (hne : whole ≠ []) :
    Decimal.parse? (whole ++ rest) = some ⟨false, digitsValue whole, e⟩ := by
  have hletter := head_of_exponent? hexponent
  have hrest : ∀ c ∈ rest.head?, c.isDigit = false := fun c hc => by
    rw [hletter c hc]
    rfl
  have hsigned : signed (whole ++ rest) = (false, whole ++ rest) :=
    signed_digits hwhole fun c hc => by
      rw [hletter c hc]
      decide
  have hguard : (whole.isEmpty && ([] : List Char).isEmpty) = false := by
    rw [Bool.and_eq_false_iff, List.isEmpty_eq_false_iff]
    exact .inl hne
  unfold Decimal.parse?
  simp only [hsigned, takeWhile_run hwhole hrest, dropWhile_run hwhole hrest]
  split
  · cases hletter '.' rfl
  · simp only [hexponent, hguard, List.append_nil]
    simp

theorem parse?_point (hfraction : ∀ c ∈ fraction, c.isDigit = true)
    (hne : whole ≠ [] ∨ fraction ≠ []) :
    Decimal.parse? (whole ++ '.' :: (fraction ++ rest)) =
      some ⟨false, digitsValue (whole ++ fraction), e - fraction.length⟩ := by
  have hrest : ∀ c ∈ rest.head?, c.isDigit = false := fun c hc => by
    rw [head_of_exponent? hexponent c hc]
    rfl
  have hpoint : ∀ c ∈ ('.' :: (fraction ++ rest)).head?, c.isDigit = false := by
    rintro c ⟨⟩
    rfl
  have hsign : ∀ c ∈ ('.' :: (fraction ++ rest)).head?, c ≠ '-' ∧ c ≠ '+' := by
    rintro c ⟨⟩
    decide
  have hsigned := signed_digits hwhole hsign
  have hguard : (whole.isEmpty && fraction.isEmpty) = false := by
    rwa [Bool.and_eq_false_iff, List.isEmpty_eq_false_iff, List.isEmpty_eq_false_iff]
  unfold Decimal.parse?
  simp only [hsigned, takeWhile_run hwhole hpoint, dropWhile_run hwhole hpoint,
    takeWhile_run hfraction hrest, dropWhile_run hfraction hrest, hexponent, hguard]
  rfl

end Parse

namespace Scientific

/-- What counts of a number is read as a decimal of the same value. -/
theorem parse?_plain (s : Scientific) :
    ∃ d, Decimal.parse? s.plain = some d ∧ d.value = s.value := by
  have hwhole : ∀ c ∈ s.whole.elim [] (·.plain), c.isDigit = true := fun c hc => by
    obtain ⟨ds, -, hc⟩ := mem_elim_nil.mp hc
    exact Digits.isDigit_of_mem_plain hc
  have hvalue : digitsValue (s.whole.elim [] (·.plain)) = s.wholeValue := by
    unfold wholeValue
    cases s.whole with
    | none => rfl
    | some ds => exact digitsValue_plain ds
  have hexponent : exponent? (s.exponent.elim [] (·.plain)) = some s.power := by
    unfold power
    cases s.exponent with
    | none => rfl
    | some e => exact exponent?_plain e
  unfold plain value fractionValue
  cases hfraction : s.fraction with
  | none =>
    obtain ⟨ds, hds⟩ : ∃ ds, s.whole = some ds :=
      Option.isSome_iff_exists.mp (s.written.resolve_right (by simp [hfraction]))
    have hne : s.whole.elim [] (·.plain) ≠ [] := by
      rw [hds]
      exact ds.plain_ne_nil
    refine ⟨_, parse?_whole hwhole hexponent hne, ?_⟩
    simp [Decimal.value, hvalue]
  | some ds =>
    refine ⟨_, parse?_point hwhole hexponent (fun c => Digits.isDigit_of_mem_plain)
      (.inr ds.plain_ne_nil), ?_⟩
    have hlength : ds.plain.length = ds.all.length := List.length_map _
    rw [Decimal.value, digitsValue_append, hvalue, digitsValue_plain, hlength]
    simp only [Bool.false_eq_true, if_false, one_mul]
    rw [zpow_sub₀ (by norm_num), zpow_natCast]
    push_cast
    field_simp

/-- The characters that count of a number. -/
theorem mem_plain {s : Scientific} {c : Char} (h : c ∈ s.plain) :
    c.isDigit = true ∨ c ∈ ['.', 'e', '-', '+'] := by
  have hdigits {ds : Digits 10} (h : c ∈ ds.plain) : c.isDigit = true :=
    Digits.isDigit_of_mem_plain h
  rcases List.mem_append.mp h with hwhole | hmore
  · obtain ⟨ds, -, hc⟩ := mem_elim_nil.mp hwhole
    exact .inl (hdigits hc)
  rcases List.mem_append.mp hmore with hfraction | hexponent
  · obtain ⟨ds, -, hc⟩ := mem_elim_nil.mp hfraction
    rcases List.mem_cons.mp hc with rfl | hc
    · exact .inr (by decide)
    · exact .inl (hdigits hc)
  · obtain ⟨e, -, hc⟩ := mem_elim_nil.mp hexponent
    rcases List.mem_cons.mp hc with rfl | hc
    · exact .inr (by decide)
    rcases List.mem_append.mp hc with hsign | hc
    · exact .inr (e.mem_signText hsign)
    · exact .inl (hdigits hc)

end Scientific

/-- A number with nothing but a whole part. -/
def Scientific.ofDigits (ds : Digits 10) : Scientific :=
  ⟨some ds, none, none, .inl rfl⟩

theorem Scientific.text_ofDigits (ds : Digits 10) : (ofDigits ds).text = ds.text :=
  List.append_nil _

theorem Scientific.value_ofDigits (ds : Digits 10) : (ofDigits ds).value = ds.value := by
  simp [ofDigits, value, wholeValue, fractionValue, power]

theorem unsignedValue?_decimal {cs : List Char} (hx : 'x' ∉ cs) (hb : 'b' ∉ cs) :
    unsignedValue? cs =
      (Decimal.parse? (withoutSuffix ['u', 'l', 'f', 'd', 'm'] cs)).bind Decimal.smallValue? := by
  unfold unsignedValue?
  split
  · simp at hx
  · simp at hb
  · rfl

/-- A number in decimal digits is taken to the nearest number, if that is a whole number from -2
to 2. -/
theorem Scientific.unsignedValue?_text (s : Scientific) {suffix : List Char}
    (h : ∀ c ∈ suffix, ['u', 'l', 'f', 'd', 'm'].contains c.toLower = true) {n : ℤ} :
    unsignedValue? (normalized (s.text ++ suffix)) = some n ↔
      n.natAbs ≤ 2 ∧ IsNearest n s.value := by
  have hsuffix := contains_of_mem_normalized h
  -- no letter of a type or of a radix stands in front of the suffix
  have hletters : ∀ c ∈ ['u', 'l', 'f', 'd', 'm', 'x', 'b'],
      c.isDigit = false ∧ c ∉ ['.', 'e', '-', '+'] := by simp
  have hplain : ∀ c ∈ s.plain, c ∉ ['u', 'l', 'f', 'd', 'm', 'x', 'b'] := by
    intro c hc hletter
    obtain ⟨hdigit, hother⟩ := hletters c hletter
    rcases s.mem_plain hc with h | h
    · rw [hdigit] at h
      cases h
    · exact hother h
  have hnot {c : Char} (hc : c ∈ ['u', 'l', 'f', 'd', 'm', 'x', 'b'])
      (hout : ['u', 'l', 'f', 'd', 'm'].contains c = false) : c ∉ s.plain ++ normalized suffix := by
    intro hmem
    rcases List.mem_append.mp hmem with hmem | hmem
    · exact hplain c hmem hc
    · rw [hsuffix c hmem] at hout
      cases hout
  have hrest : ∀ c ∈ s.plain, ['u', 'l', 'f', 'd', 'm'].contains c = false := fun c hc =>
    Bool.eq_false_iff.mpr fun hletter =>
      hplain c hc (List.mem_append_left ['x', 'b'] (List.contains_iff_mem.mp hletter))
  obtain ⟨d, hd, hvalue⟩ := s.parse?_plain
  rw [normalized_append, s.normalized_text,
    unsignedValue?_decimal (hnot (by decide) (by decide)) (hnot (by decide) (by decide)),
    withoutSuffix_append hsuffix hrest, hd, Option.bind_some, Decimal.smallValue?_eq_some_iff,
    hvalue]

/-- A number begins with a digit or a point. -/
theorem Scientific.opens (s : Scientific) (suffix : List Char) :
    ∀ c ∈ (s.text ++ suffix).head?, c ≠ '-' ∧ Text.isBlank c = false := by
  unfold text
  cases hwhole : s.whole with
  | some ds =>
    rintro c ⟨⟩
    exact ⟨ds.first.char_ne_minus (by decide), ds.first.isBlank_char (by decide)⟩
  | none =>
    obtain ⟨ds, hds⟩ : ∃ ds, s.fraction = some ds :=
      Option.isSome_iff_exists.mp (s.written.resolve_left (by simp [hwhole]))
    rw [hds]
    rintro c ⟨⟩
    decide

/-- A real number in the source: decimal digits, maybe with a sign in front and the letter of a type
behind. -/
structure RealLiteral where
  negative : Bool
  magnitude : Scientific
  suffix : Option Char
  letter : ∀ c ∈ suffix, c ∈ ['f', 'F', 'd', 'D', 'm', 'M']

namespace RealLiteral

def text (l : RealLiteral) : String :=
  String.ofList ((if l.negative then ['-'] else []) ++ (l.magnitude.text ++ l.suffix.toList))

def value (l : RealLiteral) : ℚ :=
  if l.negative then -l.magnitude.value else l.magnitude.value

end RealLiteral

theorem RealLiteral.smallValue?_text (l : RealLiteral) {n : ℤ} :
    smallValue? l.text = some n ↔ n.natAbs ≤ 2 ∧ IsNearest n l.value := by
  have hsuffix : ∀ c ∈ l.suffix.toList, ['u', 'l', 'f', 'd', 'm'].contains c.toLower = true := by
    have hall : ∀ c ∈ ['f', 'F', 'd', 'D', 'm', 'M'],
        ['u', 'l', 'f', 'd', 'm'].contains c.toLower = true := by simp
    exact fun c hc => hall c (l.letter c (Option.mem_toList.mp hc))
  rw [text, smallValue?_signed (l.magnitude.opens _), l.magnitude.unsignedValue?_text hsuffix,
    value]
  split
  · rw [Int.natAbs_neg, Int.cast_neg, ← isNearest_neg_iff, neg_neg]
  · rfl

end CodeSmell.Numeral

namespace CodeSmell

open Numeral

theorem isCommonLiteral_iff {text : String} :
    isCommonLiteral text = true ↔ ∃ c ∈ commonValues, smallValue? text = some c := by
  rw [isCommonLiteral, Option.any_eq_true]
  constructor
  · rintro ⟨c, hc, hcommon⟩
    exact ⟨c, List.contains_iff_mem.mp hcommon, hc⟩
  · rintro ⟨c, hcommon, hc⟩
    exact ⟨c, hc, List.contains_iff_mem.mpr hcommon⟩

theorem natAbs_le_of_mem_commonValues : ∀ c ∈ commonValues, c.natAbs ≤ 2 := by
  decide

/-- What has at most fifteen decimal places is taken to no small whole number but itself. -/
theorem eq_of_isNearest_of_places {c n : ℤ} {v : ℚ} (hc : c.natAbs ≤ 2) (hv : v * 10 ^ 15 = n)
    (h : IsNearest c v) : v = c := by
  obtain ⟨hlow, hhigh⟩ := abs_le.mp (h.abs_sub_le hc)
  have hlt : (n : ℚ) < c * 10 ^ 15 + 1 := by linarith
  have hgt : (c * 10 ^ 15 : ℚ) < n + 1 := by linarith
  have heq : n = c * 10 ^ 15 := by
    norm_cast at hlt hgt
    omega
  have hten : (10 : ℚ) ^ 15 ≠ 0 := by positivity
  exact mul_right_cancel₀ hten (by rw [hv, heq]; push_cast; rfl)

/-- **Real numbers are rounded before they are compared.** A real number is common if and only if
-1, 0, 1 or 2 is a number of 64 bits that is nearest to it. So it is if it is one of the four, and
so it is only then if it has no more than fifteen decimal places. -/
theorem real_literals_rounded (l : RealLiteral) :
    (isCommonLiteral l.text = true ↔ ∃ c ∈ commonValues, IsNearest c l.value) ∧
      ((∃ c ∈ commonValues, l.value = c) → isCommonLiteral l.text = true) ∧
      ((∃ n : ℤ, l.value * 10 ^ 15 = n) →
        (isCommonLiteral l.text = true ↔ ∃ c ∈ commonValues, l.value = c)) := by
  have hnearest : isCommonLiteral l.text = true ↔ ∃ c ∈ commonValues, IsNearest c l.value := by
    rw [isCommonLiteral_iff]
    refine exists_congr fun c => and_congr_right fun hc => ?_
    rw [l.smallValue?_text, and_iff_right (natAbs_le_of_mem_commonValues c hc)]
  have hexact : (∃ c ∈ commonValues, l.value = c) → isCommonLiteral l.text = true := by
    rintro ⟨c, hc, hvalue⟩
    refine hnearest.mpr ⟨c, hc, ?_⟩
    rw [hvalue]
    exact isNearest_self (natAbs_le_of_mem_commonValues c hc)
  refine ⟨hnearest, hexact, fun ⟨n, hn⟩ => ⟨fun h => ?_, hexact⟩⟩
  obtain ⟨c, hc, hc'⟩ := hnearest.mp h
  exact ⟨c, hc, eq_of_isNearest_of_places (natAbs_le_of_mem_commonValues c hc) hn hc'⟩

namespace Numeral

/-- Minus one as `-1_0.00e-1M`. -/
def minusOne : RealLiteral where
  negative := true
  magnitude :=
    { whole := some ⟨⟨1, false⟩, [none, some ⟨0, false⟩]⟩
      fraction := some ⟨⟨0, false⟩, [some ⟨0, false⟩]⟩
      exponent := some ⟨false, some true, ⟨1, false⟩, []⟩
      written := .inl rfl }
  suffix := some 'M'
  letter := by simp

/-- A number that differs from one in the twentieth decimal place. -/
def lateDigit : RealLiteral where
  negative := false
  magnitude :=
    { whole := some ⟨⟨1, false⟩, []⟩
      fraction := some ⟨⟨0, false⟩, List.replicate 18 (some ⟨0, false⟩) ++ [some ⟨1, false⟩]⟩
      exponent := none
      written := .inl rfl }
  suffix := some 'm'
  letter := by simp

end Numeral

theorem minusOne_common :
    minusOne.text = "-1_0.00e-1M" ∧ (∃ c ∈ commonValues, minusOne.value = c) ∧
      (∃ n : ℤ, minusOne.value * 10 ^ 15 = n) ∧ isCommonLiteral minusOne.text = true ∧
      (isCommonLiteral minusOne.text = true ↔ ∃ c ∈ commonValues, minusOne.value = c) := by
  have hvalue : minusOne.value = -1 := by decide +kernel
  have hcommon : ∃ c ∈ commonValues, minusOne.value = c := ⟨-1, by decide, by simpa using hvalue⟩
  have hplaces : ∃ n : ℤ, minusOne.value * 10 ^ 15 = n := ⟨-10 ^ 15, by rw [hvalue]; norm_num⟩
  obtain ⟨-, haccepted, hexact⟩ := real_literals_rounded minusOne
  exact ⟨by decide, hcommon, hplaces, haccepted hcommon, hexact hplaces⟩

/-- A real number that is common, although it is none of the common values. -/
theorem lateDigit_common :
    lateDigit.text = "1.00000000000000000001m" ∧ lateDigit.value = 1 + 1 / 10 ^ 20 ∧
      (¬ ∃ c ∈ commonValues, lateDigit.value = c) ∧ isCommonLiteral lateDigit.text = true :=
  ⟨by decide, by decide +kernel, by decide +kernel, by decide +kernel⟩

end CodeSmell
