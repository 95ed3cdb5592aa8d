import CodeSmell.Check.Numeral
import CodeSmell.Proofs.Text.Run
import Mathlib.Data.List.ReduceOption
import Mathlib.Data.Nat.Digits.Defs

/-!
# Digits

* `Digit`, `Digits` : digits in a radix, in small or capital letters and with underscores behind the
  first, and the number that they stand for;
* `Digits.normalized_text` : what is left of them is the digits in small letters;
* `inRadix?_plain`, `digitsValue_plain` : these are read as the number;
* `withoutSuffix_append` : the letters behind them are left out;
* `smallValue?_signed` : a minus in front changes the sign.
-/

namespace CodeSmell.Numeral

/-- A digit in a radix, in a capital letter or in a small one. -/
structure Digit (radix : Nat) where
  value : Fin radix
  capital : Bool

/-- One digit or more, and underscores behind the first. -/
structure Digits (radix : Nat) where
  first : Digit radix
  rest : List (Option (Digit radix))

variable {radix : Nat}

namespace Digit

/-- The digit in a small letter. -/
def plain (d : Digit radix) : Char :=
  Nat.digitChar d.value

def char (d : Digit radix) : Char :=
  if d.capital then d.plain.toUpper else d.plain

/-- What holds of all digits holds of one that is written. -/
theorem char_of_forall {P : Nat → Char → Prop} (h : radix ≤ 16)
    (hP : ∀ n < 16, P n (Nat.digitChar n) ∧ P n (Nat.digitChar n).toUpper) (d : Digit radix) :
    P d.value d.char := by
  obtain ⟨hsmall, hcapital⟩ := hP d.value (d.value.isLt.trans_le h)
  unfold char
  split
  · exact hcapital
  · exact hsmall

theorem toLower_char (h : radix ≤ 16) (d : Digit radix) : d.char.toLower = d.plain :=
  char_of_forall (P := fun n c => c.toLower = Nat.digitChar n) h (by decide) d

theorem char_ne_underscore (h : radix ≤ 16) (d : Digit radix) : d.char ≠ '_' :=
  char_of_forall (P := fun _ c => c ≠ '_') h (by decide) d

theorem char_ne_minus (h : radix ≤ 16) (d : Digit radix) : d.char ≠ '-' :=
  char_of_forall (P := fun _ c => c ≠ '-') h (by decide) d

theorem isBlank_char (h : radix ≤ 16) (d : Digit radix) : Text.isBlank d.char = false :=
  char_of_forall (P := fun _ c => Text.isBlank c = false) h (by decide) d

theorem digitValue?_plain (h : radix ≤ 16) (d : Digit radix) :
    digitValue? d.plain = some d.value.val := by
  have hall : ∀ n < 16, digitValue? (Nat.digitChar n) = some n := by decide
  exact hall d.value (d.value.isLt.trans_le h)

theorem isDigit_plain (d : Digit 10) : d.plain.isDigit = true := by
  rw [plain, Nat.isDigit_digitChar, decide_eq_true_iff]
  exact d.value.isLt

end Digit

namespace Digits

/-- The digits without the underscores. -/
def all (ds : Digits radix) : List (Digit radix) :=
  ds.first :: ds.rest.reduceOption

def text (ds : Digits radix) : List Char :=
  ds.first.char :: ds.rest.map fun
    | some d => d.char
    | none => '_'

def value (ds : Digits radix) : Nat :=
  Nat.ofDigits radix (ds.all.map (·.value.val)).reverse

/-- The digits in small letters, without the underscores. -/
def plain (ds : Digits radix) : List Char :=
  ds.all.map (·.plain)

theorem plain_ne_nil (ds : Digits radix) : ds.plain ≠ [] :=
  nofun

theorem isDigit_of_mem_plain {ds : Digits 10} {c : Char} (h : c ∈ ds.plain) : c.isDigit = true := by
  obtain ⟨d, -, rfl⟩ := List.mem_map.mp h
  exact d.isDigit_plain

end Digits

/-! ## What counts of a text -/

theorem normalized_append (cs ds : List Char) :
    normalized (cs ++ ds) = normalized cs ++ normalized ds := by
  rw [normalized, List.filter_append, List.map_append]
  rfl

theorem normalized_cons_of_ne {c : Char} (h : c ≠ '_') (cs : List Char) :
    normalized (c :: cs) = c.toLower :: normalized cs := by
  rw [normalized, List.filter_cons, if_pos (bne_iff_ne.mpr h), List.map_cons]
  rfl

theorem normalized_underscores (n : Nat) : normalized (List.replicate n '_') = [] := by
  rw [normalized, List.filter_replicate_of_neg (by decide), List.map_nil]

theorem Digits.normalized_text (h : radix ≤ 16) (ds : Digits radix) :
    normalized ds.text = ds.plain := by
  have hrest : ∀ rest : List (Option (Digit radix)),
      normalized (rest.map fun | some d => d.char | none => '_') =
        rest.reduceOption.map (·.plain) := by
    intro rest
    induction rest with
    | nil => rfl
    | cons o rest ih =>
      cases o with
      | none => exact ih
      | some d =>
        rw [List.map_cons, normalized_cons_of_ne (d.char_ne_underscore h), d.toLower_char h, ih,
          List.reduceOption_cons_of_some, List.map_cons]
  rw [text, normalized_cons_of_ne (ds.first.char_ne_underscore h), ds.first.toLower_char h, hrest]
  rfl

/-! ## What digits are read as -/

theorem inRadix?_map_plain (h : radix ≤ 16) (n : Nat) (ds : List (Digit radix)) :
    inRadix? radix n (ds.map (·.plain)) =
      some (ds.foldl (fun n d => radix * n + d.value.val) n) := by
  induction ds generalizing n with
  | nil => rfl
  | cons d ds ih =>
    rw [List.map_cons, inRadix?, d.digitValue?_plain h]
    dsimp only
    rw [if_pos d.value.isLt, ih, List.foldl_cons]

theorem digitsValue_map_plain (ds : List (Digit 10)) :
    digitsValue (ds.map (·.plain)) = ds.foldl (fun n d => 10 * n + d.value.val) 0 := by
  have hdigit : ∀ d : Digit 10, d.plain.toNat - 48 = d.value.val := fun d =>
    Nat.toNat_digitChar_sub_48_of_lt_ten d.value.isLt
  simp only [digitsValue, List.foldl_map, hdigit]

theorem Digits.value_eq_foldl (ds : Digits radix) :
    ds.value = ds.all.foldl (fun n d => radix * n + d.value.val) 0 := by
  rw [value, Nat.ofDigits_eq_foldr, List.foldr_reverse, List.foldl_map]
  simp only [Nat.cast_id, Nat.add_comm]

theorem inRadix?_plain (h : radix ≤ 16) (ds : Digits radix) :
    inRadix? radix 0 ds.plain = some ds.value := by
  rw [Digits.plain, inRadix?_map_plain h, ds.value_eq_foldl]

theorem digitsValue_plain (ds : Digits 10) : digitsValue ds.plain = ds.value := by
  rw [Digits.plain, digitsValue_map_plain, ds.value_eq_foldl]

theorem digitsValue_append (cs ds : List Char) :
    digitsValue (cs ++ ds) = digitsValue cs * 10 ^ ds.length + digitsValue ds := by
  have happend : digitsValue (cs ++ ds) = Nat.ofDigitChars 10 ds (digitsValue cs) :=
    Nat.ofDigitChars_append 0
  rw [happend, Nat.ofDigitChars_eq_ofDigitChars_zero, Nat.mul_comm]
  rfl

/-! ## The letters behind the digits -/

theorem withoutSuffix_append {letters cs suffix : List Char}
    (hsuffix : ∀ c ∈ suffix, letters.contains c = true)
    (hcs : ∀ c ∈ cs, letters.contains c = false) :
    withoutSuffix letters (cs ++ suffix) = cs := by
  have hsuffix' : ∀ c ∈ suffix.reverse, letters.contains c = true := fun c hc =>
    hsuffix c (List.mem_reverse.mp hc)
  have hlast : ∀ c ∈ cs.reverse.head?, letters.contains c = false := fun c hc =>
    hcs c (List.mem_reverse.mp (List.mem_of_mem_head? hc))
  rw [withoutSuffix, List.reverse_append, dropWhile_run hsuffix' hlast, List.reverse_reverse]

/-- Letters of a type are still so in small letters. -/
theorem contains_of_mem_normalized {letters suffix : List Char}
    (h : ∀ c ∈ suffix, letters.contains c.toLower = true) :
    ∀ c ∈ normalized suffix, letters.contains c = true := by
  intro c hc
  obtain ⟨d, hd, rfl⟩ := List.mem_map.mp hc
  exact h d (List.mem_of_mem_filter hd)

/-! ## The sign in front -/

/-- A minus in front of a number changes its sign, and there is no other sign. -/
theorem smallValue?_signed {cs : List Char}
    (hopens : ∀ c ∈ cs.head?, c ≠ '-' ∧ Text.isBlank c = false) (negative : Bool) {n : Int} :
    smallValue? (String.ofList ((if negative then ['-'] else []) ++ cs)) = some n ↔
      unsignedValue? (normalized cs) = some (if negative then -n else n) := by
  unfold smallValue?
  cases negative with
  | false =>
    rw [String.toList_ofList, if_neg (by decide), if_neg (by decide), List.nil_append]
    split
    · exact absurd rfl (hopens '-' rfl).1
    · exact Iff.rfl
  | true =>
    have hdrop : cs.dropWhile Text.isBlank = cs := by
      cases cs with
      | nil => rfl
      | cons c cs => exact List.dropWhile_cons_of_neg (by rw [(hopens c rfl).2]; decide)
    rw [String.toList_ofList, if_pos rfl, if_pos rfl, List.singleton_append]
    simp only [hdrop]
    rw [Option.map_eq_some_iff]
    constructor
    · rintro ⟨m, hm, rfl⟩
      rw [hm, Int.neg_neg]
    · intro h
      exact ⟨-n, h, Int.neg_neg n⟩

end CodeSmell.Numeral
