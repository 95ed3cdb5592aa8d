import CodeSmell.Proofs.Numeral.Real

/-!
# Integers in the source

* `Natural`, `IntegerLiteral` : the ways to write an integer in decimal, hexadecimal or binary
  digits, with a sign in front and the letters of a type behind, and the integer;
* `whole?_digits` : digits behind a prefix are read if they stand for less than 2^64;
* `Natural.unsignedValue?_text` : of the integers from -2 to 2, just the one that is written is
  read;
* `integer_literals_compared` : an integer is common if and only if it is -1, 0, 1 or 2.
-/

namespace CodeSmell.Numeral

/-- A natural number in the source: decimal digits, or digits behind the prefix of a radix, with
underscores between them and the prefix. -/
inductive Natural where
  | decimal (digits : Digits 10)
  | hexadecimal (capital : Bool) (gap : Nat) (digits : Digits 16)
  | binary (capital : Bool) (gap : Nat) (digits : Digits 2)

namespace Natural

def text : Natural → List Char
  | decimal digits => digits.text
  | hexadecimal capital gap digits =>
    '0' :: (if capital then 'X' else 'x') :: (List.replicate gap '_' ++ digits.text)
  | binary capital gap digits =>
    '0' :: (if capital then 'B' else 'b') :: (List.replicate gap '_' ++ digits.text)

def value : Natural → ℕ
  | decimal digits => digits.value
  | hexadecimal _ _ digits => digits.value
  | binary _ _ digits => digits.value

end Natural

/-- An integer in the source: a natural number, maybe with a minus in front and the letters of a
type behind. -/
structure IntegerLiteral where
  negative : Bool
  magnitude : Natural
  suffix : List Char
  letters : ∀ c ∈ suffix, c ∈ ['u', 'U', 'l', 'L']

namespace IntegerLiteral

def text (l : IntegerLiteral) : String :=
  String.ofList ((if l.negative then ['-'] else []) ++ (l.magnitude.text ++ l.suffix))

def value (l : IntegerLiteral) : ℤ :=
  if l.negative then -l.magnitude.value else l.magnitude.value

end IntegerLiteral

/-! ## What is read -/

section Radix

variable {radix : ℕ} {suffix : List Char}

theorem not_mem_of_mem_plain (h : radix ≤ 16) {ds : Digits radix} {c : Char} (hc : c ∈ ds.plain) :
    c ∉ ['u', 'l', '+'] := by
  have hall : ∀ n < 16, Nat.digitChar n ∉ ['u', 'l', '+'] := by decide
  obtain ⟨d, -, rfl⟩ := List.mem_map.mp hc
  exact hall d.value (d.value.isLt.trans_le h)

theorem whole?_plain (h : radix ≤ 16) (ds : Digits radix) :
    whole? radix ds.plain = if ds.value < 2 ^ 64 then some ds.value else none := by
  unfold whole?
  split
  · next rest hplus =>
    have hmem : '+' ∈ ds.plain := by
      rw [hplus]
      exact List.mem_cons_self
    exact absurd (by decide) (not_mem_of_mem_plain h hmem)
  · dsimp only
    rw [if_neg (by rw [List.isEmpty_iff]; exact ds.plain_ne_nil), inRadix?_plain h,
      Option.filter_some]
    simp

/-- Digits behind a prefix are read if they stand for less than 2^64. -/
theorem whole?_digits (h : radix ≤ 16)
    (hsuffix : ∀ c ∈ suffix, ['u', 'l'].contains c.toLower = true) (gap : ℕ) (ds : Digits radix) :
    whole? radix (withoutSuffix ['u', 'l']
        (normalized (List.replicate gap '_' ++ ds.text ++ suffix))) =
      if ds.value < 2 ^ 64 then some ds.value else none := by
  have hplain : ∀ c ∈ ds.plain, ['u', 'l'].contains c = false := fun c hc =>
    Bool.eq_false_iff.mpr fun hletter =>
      not_mem_of_mem_plain h hc (List.mem_append_left ['+'] (List.contains_iff_mem.mp hletter))
  rw [normalized_append, normalized_append, normalized_underscores, List.nil_append,
    ds.normalized_text h, withoutSuffix_append (contains_of_mem_normalized hsuffix) hplain,
    whole?_plain h]

/-- What is not read is too great to be one of the integers from -2 to 2. -/
theorem map_whole?_digits (h : radix ≤ 16)
    (hsuffix : ∀ c ∈ suffix, ['u', 'l'].contains c.toLower = true) (gap : ℕ) (ds : Digits radix)
    {n : ℤ} (hn : n.natAbs ≤ 2) :
    (whole? radix (withoutSuffix ['u', 'l']
        (normalized (List.replicate gap '_' ++ ds.text ++ suffix)))).map Int.ofNat = some n ↔
      (ds.value : ℤ) = n := by
  rw [whole?_digits h hsuffix]
  split
  · exact Option.some_inj
  · exact iff_of_false nofun (by omega)

end Radix

/-- A natural number is only taken to itself. -/
theorem isNearest_natCast_iff {m : ℕ} {n : ℤ} (hn : n.natAbs ≤ 2) :
    IsNearest n m ↔ (m : ℤ) = n := by
  constructor
  · intro h
    have hplaces : (m : ℚ) * 10 ^ 15 = ((m * 10 ^ 15 : ℤ) : ℚ) := by push_cast; rfl
    exact_mod_cast eq_of_isNearest_of_places hn hplaces h
  · rintro rfl
    exact_mod_cast isNearest_self hn

namespace Natural

/-- Of the integers from -2 to 2, just the one that is written is read. -/
theorem unsignedValue?_text (m : Natural) {suffix : List Char}
    (hsuffix : ∀ c ∈ suffix, ['u', 'l'].contains c.toLower = true) {n : ℤ} (hn : n.natAbs ≤ 2) :
    unsignedValue? (normalized (m.text ++ suffix)) = some n ↔ (m.value : ℤ) = n := by
  cases m with
  | decimal digits =>
    have hsuffix' : ∀ c ∈ suffix, ['u', 'l', 'f', 'd', 'm'].contains c.toLower = true :=
      fun c hc => List.contains_iff_mem.mpr
        (List.mem_append_left ['f', 'd', 'm'] (List.contains_iff_mem.mp (hsuffix c hc)))
    have hread := (Scientific.ofDigits digits).unsignedValue?_text hsuffix' (n := n)
    rwa [Scientific.text_ofDigits, Scientific.value_ofDigits, and_iff_right hn,
      isNearest_natCast_iff hn] at hread
  | hexadecimal capital gap digits =>
    refine Iff.trans (Eq.congr_left ?_) (map_whole?_digits (by decide) hsuffix gap digits hn)
    cases capital <;> rfl
  | binary capital gap digits =>
    refine Iff.trans (Eq.congr_left ?_) (map_whole?_digits (by decide) hsuffix gap digits hn)
    cases capital <;> rfl

/-- A number begins with a digit. -/
theorem opens (m : Natural) (suffix : List Char) :
    ∀ c ∈ (m.text ++ suffix).head?, c ≠ '-' ∧ Text.isBlank c = false := by
  cases m with
  | decimal digits =>
    rintro c ⟨⟩
    exact ⟨digits.first.char_ne_minus (by decide), digits.first.isBlank_char (by decide)⟩
  | hexadecimal =>
    rintro c ⟨⟩
    decide
  | binary =>
    rintro c ⟨⟩
    decide

end Natural

theorem IntegerLiteral.smallValue?_text (l : IntegerLiteral) {n : ℤ} (hn : n.natAbs ≤ 2) :
    smallValue? l.text = some n ↔ l.value = n := by
  have hsuffix : ∀ c ∈ l.suffix, ['u', 'l'].contains c.toLower = true := by
    have hall : ∀ c ∈ ['u', 'U', 'l', 'L'], ['u', 'l'].contains c.toLower = true := by simp
    exact fun c hc => hall c (l.letters c hc)
  rw [text, smallValue?_signed (l.magnitude.opens _), value]
  split
  · rw [l.magnitude.unsignedValue?_text hsuffix (by rwa [Int.natAbs_neg]), neg_eq_iff_eq_neg]
  · exact l.magnitude.unsignedValue?_text hsuffix hn

end CodeSmell.Numeral

namespace CodeSmell

open Numeral

/-- **Integers are compared by value.** An integer is common if and only if it is -1, 0, 1 or 2,
however long it is and whatever its radix, the case of its letters, its underscores and its
suffix. -/
theorem integer_literals_compared (l : IntegerLiteral) :
    isCommonLiteral l.text = true ↔ l.value = -1 ∨ l.value = 0 ∨ l.value = 1 ∨ l.value = 2 := by
  have hmem : l.value ∈ commonValues ↔
      l.value = -1 ∨ l.value = 0 ∨ l.value = 1 ∨ l.value = 2 := by
    simp [commonValues]
  rw [isCommonLiteral_iff, ← hmem]
  constructor
  · rintro ⟨c, hc, h⟩
    rwa [(l.smallValue?_text (natAbs_le_of_mem_commonValues c hc)).mp h]
  · intro h
    exact ⟨l.value, h, (l.smallValue?_text (natAbs_le_of_mem_commonValues _ h)).mpr rfl⟩

example :
    isCommonLiteral "-0X_01Ul" = true ∧ isCommonLiteral "0x1_0000_0000_0000_0001" = false := by
  decide +kernel

end CodeSmell
