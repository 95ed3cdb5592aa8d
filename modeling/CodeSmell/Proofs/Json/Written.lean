import CodeSmell.Json.Printer
import CodeSmell.Json.Reader
import CodeSmell.Proofs.Text.Run

/-!
# Texts of JSON values

* `Part`, `Written` : the texts that write a value with natural numbers only, with blanks around the
  tokens as anyone likes;
* `stringBody_quote`, `number_toDigits` : a printed string and a printed number are read back;
* `Written.reads` : so is every text that writes something, whatever follows it;
* `Whole.written_layout`, `Whole.written_line` : both ways to print a value write it;
* `parse_pretty`, `parse_compact` : what is printed is parsed as the value.
-/

namespace CodeSmell.Json

/-! ## Strings -/

theorem hexValue?_hexDigit {n : Nat} (h : n < 16) : hexValue? (hexDigit n) = some n := by
  revert n
  decide

/-- The escape of a control is read as its code. -/
theorem hex4?_control {n : Nat} (h : n < 0x20) :
    hex4? '0' '0' (hexDigit (n / 16)) (hexDigit (n % 16)) = some n := by
  have hzero : hexValue? '0' = some 0 := rfl
  rw [hex4?, hzero, hexValue?_hexDigit (by omega : n / 16 < 16),
    hexValue?_hexDigit (Nat.mod_lt n (by decide))]
  simp only [Option.bind_eq_bind, Option.bind_some, Option.some.injEq]
  omega

theorem stringBody_close (read rest : List Char) :
    stringBody read ('"' :: rest) = some (String.ofList read.reverse, rest) := by
  rw [stringBody.eq_def]
  rfl

theorem stringBody_plain {c : Char} (hquote : c ≠ '"') (hslash : c ≠ '\\')
    (hcontrol : ¬ c.toNat < 0x20) (read rest : List Char) :
    stringBody read (c :: rest) = stringBody (c :: read) rest := by
  rw [stringBody.eq_def]
  dsimp only
  rw [if_neg hquote, if_neg hslash, if_neg hcontrol]

theorem stringBody_code {a b c d : Char} {n : Nat} (hn : hex4? a b c d = some n) (h : n < 0xD800)
    (read rest : List Char) :
    stringBody read ('\\' :: 'u' :: a :: b :: c :: d :: rest) =
      stringBody (Char.ofNat n :: read) rest := by
  rw [stringBody.eq_def]
  dsimp only
  rw [if_neg (by decide), if_pos rfl]
  simp only [hn]
  rw [if_pos (by simp [h])]

theorem stringBody_escape (read : List Char) (c : Char) (rest : List Char) :
    stringBody read (escape c ++ rest) = stringBody (c :: read) rest := by
  unfold escape
  split
  · rfl
  · rfl
  · rfl
  · rfl
  · rfl
  · rfl
  · rfl
  · next hquote hslash _ _ _ _ _ =>
    split
    · next hcontrol =>
      have hcode := stringBody_code (hex4?_control hcontrol) (by omega) read rest
      rwa [Char.ofNat_toNat] at hcode
    · next hcontrol => exact stringBody_plain hquote hslash hcontrol read rest

theorem stringBody_flatMap_escape (read cs rest : List Char) :
    stringBody read (cs.flatMap escape ++ '"' :: rest) =
      some (String.ofList (read.reverse ++ cs), rest) := by
  induction cs generalizing read with
  | nil => rw [List.flatMap_nil, List.nil_append, stringBody_close, List.append_nil]
  | cons c cs ih =>
    rw [List.flatMap_cons, List.append_assoc, stringBody_escape, ih, List.reverse_cons,
      List.append_assoc, List.singleton_append]

/-- A string is read back behind its opening quote. -/
theorem stringBody_quote (s : String) (rest : List Char) :
    stringBody [] (s.toList.flatMap escape ++ '"' :: rest) = some (s, rest) := by
  rw [stringBody_flatMap_escape, List.reverse_nil, List.nil_append, String.ofList_toList]

/-! ## Numbers -/

/-- A text that begins with nothing that a number could go on with. -/
def Ends (rest : List Char) : Prop :=
  ∀ c ∈ rest.head?, isNumeral c = false

theorem digitsValue_toDigits (n : Nat) : digitsValue (Nat.toDigits 10 n) = n :=
  Nat.ofDigitChars_toDigits (by decide) (by decide)

theorem isDigit_of_mem_toDigits {n : Nat} {c : Char} (h : c ∈ Nat.toDigits 10 n) :
    c.isDigit = true :=
  Nat.isDigit_of_mem_toDigits (by decide) (by decide) h

/-- Only zero is written with a zero in front. -/
theorem toDigits_cases (n : Nat) :
    Nat.toDigits 10 n = ['0'] ∨ ∃ d ds, Nat.toDigits 10 n = d :: ds ∧ d ≠ '0' := by
  induction n using Nat.strongRecOn with
  | ind n ih =>
    by_cases hn : n < 10
    · rw [Nat.toDigits_of_lt_base hn]
      by_cases hzero : n = 0
      · left
        rw [hzero]
        rfl
      · exact .inr ⟨_, [], rfl, by rw [ne_eq, Nat.digitChar_eq_zero]; exact hzero⟩
    · have hle : 10 ≤ n := by omega
      rw [Nat.toDigits_of_base_le (by decide) hle]
      rcases ih (n / 10) (by omega) with hzero | ⟨d, ds, hds, hd⟩
      · have hvalue := digitsValue_toDigits (n / 10)
        rw [hzero] at hvalue
        change 0 = n / 10 at hvalue
        omega
      · exact .inr ⟨d, ds ++ [(n % 10).digitChar], by rw [hds, List.cons_append], hd⟩

theorem isNumber_toDigits (n : Nat) : isNumber (Nat.toDigits 10 n) = true := by
  rcases toDigits_cases n with hzero | ⟨d, ds, hds, hd⟩
  · rw [hzero]
    rfl
  · have hdigits : ∀ c ∈ d :: ds, c.isDigit = true := fun c hc =>
      isDigit_of_mem_toDigits (hds ▸ hc)
    obtain ⟨hfirst, hrest⟩ := List.forall_mem_cons.mp hdigits
    have hminus : d ≠ '-' := by
      rintro rfl
      cases hfirst
    have hstop : ds.dropWhile Char.isDigit = [] := List.dropWhile_eq_nil_iff.mpr hrest
    have hinteger : skipInteger? (d :: ds) = some [] := by
      simp [skipInteger?, hd, skipDigits?, hfirst, hstop]
    simp [isNumber, hds, hminus, hinteger, skipFraction?, skipExponent?]

/-- A natural number is read back, if nothing follows it that a number could go on with. -/
theorem number_toDigits (n : Nat) {rest : List Char} (h : Ends rest) :
    number (Nat.toDigits 10 n ++ rest) = some (natural n, rest) := by
  have hnumeral : ∀ c ∈ Nat.toDigits 10 n, isNumeral c = true := fun c hc => by
    simp [isNumeral, isDigit_of_mem_toDigits hc]
  have hdigits : (Nat.toDigits 10 n).all Char.isDigit = true :=
    List.all_eq_true.mpr fun c hc => isDigit_of_mem_toDigits hc
  rw [number, takeWhile_run hnumeral h, dropWhile_run hnumeral h, isNumber_toDigits,
    digitsValue_toDigits, hdigits]
  rfl

/-! ## What a text writes -/

def Blanks (cs : List Char) : Prop :=
  ∀ c ∈ cs, isSpace c = true

/-- What a text may write: a value, a value with blanks around it, or what an array or an object
holds, up to the bracket that closes it. -/
inductive Part where
  | value (j : Json)
  | padded (j : Json)
  | items (js : List Json)
  | entries (es : List (String × Json))

/-- The texts that write something. Blanks may stand around every token, and numbers are natural. -/
inductive Written : Part → List Char → Prop
  | null : Written (.value null) ['n', 'u', 'l', 'l']
  | boolTrue : Written (.value (bool true)) ['t', 'r', 'u', 'e']
  | boolFalse : Written (.value (bool false)) ['f', 'a', 'l', 's', 'e']
  | natural (n : Nat) : Written (.value (natural n)) (Nat.toDigits 10 n)
  | string (s : String) : Written (.value (string s)) (quote s)
  | emptyArray {gap : List Char} (blank : Blanks gap) :
      Written (.value (array [])) ('[' :: (gap ++ [']']))
  | array {js : List Json} {cs : List Char} (inside : Written (.items js) cs) :
      Written (.value (array js)) ('[' :: cs)
  | emptyObject {gap : List Char} (blank : Blanks gap) :
      Written (.value (object [])) ('\x7b' :: (gap ++ ['\x7d']))
  | object {es : List (String × Json)} {cs : List Char} (inside : Written (.entries es) cs) :
      Written (.value (object es)) ('\x7b' :: cs)
  | padded {j : Json} {before cs behind : List Char} (blank : Blanks before)
      (value : Written (.value j) cs) (blank' : Blanks behind) :
      Written (.padded j) (before ++ (cs ++ behind))
  | lastItem {j : Json} {cs : List Char} (item : Written (.padded j) cs) :
      Written (.items [j]) (cs ++ [']'])
  | item {j : Json} {js : List Json} {cs ds : List Char} (first : Written (.padded j) cs)
      (rest : Written (.items js) ds) : Written (.items (j :: js)) (cs ++ ',' :: ds)
  | lastEntry {name : String} {j : Json} {before behind cs : List Char} (blank : Blanks before)
      (blank' : Blanks behind) (item : Written (.padded j) cs) :
      Written (.entries [(name, j)]) (before ++ (quote name ++ (behind ++ ':' :: (cs ++ ['\x7d']))))
  | entry {name : String} {j : Json} {es : List (String × Json)} {before behind cs ds : List Char}
      (blank : Blanks before) (blank' : Blanks behind) (first : Written (.padded j) cs)
      (rest : Written (.entries es) ds) :
      Written (.entries ((name, j) :: es))
        (before ++ (quote name ++ (behind ++ ':' :: (cs ++ ',' :: ds))))

/-! ## What is written is read -/

section Blanks

variable {before : List Char} (h : Blanks before)
include h

theorem dropWhile_blanks (cs : List Char) :
    (before ++ cs).dropWhile isSpace = cs.dropWhile isSpace :=
  List.dropWhile_append_of_pos h

theorem value_blanks (fuel : Nat) (cs : List Char) :
    Json.value fuel (before ++ cs) = Json.value fuel cs := by
  cases fuel with
  | zero => rw [Json.value, Json.value]
  | succ fuel => rw [Json.value, Json.value, dropWhile_blanks h]

theorem items_blanks (fuel : Nat) (cs : List Char) :
    Json.items fuel (before ++ cs) = Json.items fuel cs := by
  cases fuel with
  | zero => rw [Json.items, Json.items]
  | succ fuel => rw [Json.items, Json.items, value_blanks h]

theorem key_blanks (cs : List Char) : key (before ++ cs) = key cs := by
  rw [key, key, dropWhile_blanks h]

theorem entries_blanks (fuel : Nat) (cs : List Char) :
    Json.entries fuel (before ++ cs) = Json.entries fuel cs := by
  cases fuel with
  | zero => rw [Json.entries, Json.entries]
  | succ fuel => rw [Json.entries, Json.entries, key_blanks h]

theorem ends_blanks {rest : List Char} (hrest : Ends rest) : Ends (before ++ rest) := by
  cases before with
  | nil => exact hrest
  | cons c before =>
    intro d hd
    obtain rfl : c = d := by simpa using hd
    have hspace := h c List.mem_cons_self
    simp only [isSpace, Bool.or_eq_true, beq_iff_eq] at hspace
    rcases hspace with ((rfl | rfl) | rfl) | rfl <;> rfl

end Blanks

theorem isSpace_of_isDigit {d : Char} (h : d.isDigit = true) : isSpace d = false := by
  rw [← Bool.not_eq_true]
  intro hspace
  simp only [isSpace, Bool.or_eq_true, beq_iff_eq] at hspace
  rcases hspace with ((rfl | rfl) | rfl) | rfl <;> cases h

theorem value_of_digit {d : Char} (h : d.isDigit = true) (fuel : Nat) (cs : List Char) :
    Json.value (fuel + 1) (d :: cs) = number (d :: cs) := by
  rw [Json.value, List.dropWhile_cons_of_neg (by rw [isSpace_of_isDigit h]; decide)]
  split
  · next heq => cases heq; cases h
  · next heq => cases heq; cases h
  · next heq => cases heq; cases h
  · next heq => cases heq; cases h
  · next heq => cases heq; cases h
  · next heq => cases heq; cases h
  · rfl

theorem value_quote (fuel : Nat) (s : String) (rest : List Char) :
    Json.value (fuel + 1) (quote s ++ rest) = some (string s, rest) := by
  rw [quote, List.append_assoc]
  change (stringBody [] (s.toList.flatMap escape ++ '"' :: rest)).map _ = _
  rw [stringBody_quote]
  rfl

/-- What stands behind an opening bracket is read as items, unless the bracket is closed at once. -/
theorem value_bracket {before : List Char} {c : Char} (h : Blanks before)
    (hspace : isSpace c = false) (hclose : c ≠ ']') (fuel : Nat) (cs : List Char) :
    Json.value (fuel + 1) ('[' :: (before ++ c :: cs)) =
      (items fuel (before ++ c :: cs)).map fun (js, rest) => (array js, rest) := by
  have hdrop : (before ++ c :: cs).dropWhile isSpace = c :: cs := by
    rw [dropWhile_blanks h, List.dropWhile_cons_of_neg (by rw [hspace]; decide)]
  rw [Json.value, List.dropWhile_cons_of_neg (by decide)]
  simp only [hdrop]
  split
  · next heq => cases heq; exact absurd rfl hclose
  · rw [items_blanks h]

theorem value_brace {before : List Char} {c : Char} (h : Blanks before) (hspace : isSpace c = false)
    (hclose : c ≠ '\x7d') (fuel : Nat) (cs : List Char) :
    Json.value (fuel + 1) ('\x7b' :: (before ++ c :: cs)) =
      (entries fuel (before ++ c :: cs)).map fun (es, rest) => (object es, rest) := by
  have hdrop : (before ++ c :: cs).dropWhile isSpace = c :: cs := by
    rw [dropWhile_blanks h, List.dropWhile_cons_of_neg (by rw [hspace]; decide)]
  rw [Json.value, List.dropWhile_cons_of_neg (by decide)]
  simp only [hdrop]
  split
  · next heq => cases heq; exact absurd rfl hclose
  · rw [entries_blanks h]

theorem value_emptyArray {gap : List Char} (h : Blanks gap) (fuel : Nat) (rest : List Char) :
    Json.value (fuel + 1) ('[' :: (gap ++ ']' :: rest)) = some (array [], rest) := by
  have hdrop : (gap ++ ']' :: rest).dropWhile isSpace = ']' :: rest := dropWhile_blanks h _
  rw [Json.value, List.dropWhile_cons_of_neg (by decide)]
  simp only [hdrop]

theorem value_emptyObject {gap : List Char} (h : Blanks gap) (fuel : Nat) (rest : List Char) :
    Json.value (fuel + 1) ('\x7b' :: (gap ++ '\x7d' :: rest)) = some (object [], rest) := by
  have hdrop : (gap ++ '\x7d' :: rest).dropWhile isSpace = '\x7d' :: rest := dropWhile_blanks h _
  rw [Json.value, List.dropWhile_cons_of_neg (by decide)]
  simp only [hdrop]

theorem key_quote (name : String) {before behind : List Char} (h : Blanks before)
    (h' : Blanks behind) (rest : List Char) :
    key (before ++ (quote name ++ (behind ++ ':' :: rest))) = some (name, rest) := by
  have hread := stringBody_quote name (behind ++ ':' :: rest)
  have hcolon : (behind ++ ':' :: rest).dropWhile isSpace = ':' :: rest := dropWhile_blanks h' _
  rw [key_blanks h, quote, List.append_assoc, List.cons_append, List.singleton_append, key,
    List.dropWhile_cons_of_neg (by decide)]
  simp only [hread, hcolon]

/-- What is written begins, blanks apart, with nothing that closes a bracket. -/
theorem Written.opens {p : Part} {cs : List Char} (h : Written p cs) :
    ∃ before c rest, Blanks before ∧ cs = before ++ c :: rest ∧ isSpace c = false ∧ c ≠ ']' ∧
      c ≠ '\x7d' := by
  have hnil : Blanks [] := fun _ hc => absurd hc List.not_mem_nil
  induction h with
  | null => exact ⟨[], _, _, hnil, rfl, by decide⟩
  | boolTrue => exact ⟨[], _, _, hnil, rfl, by decide⟩
  | boolFalse => exact ⟨[], _, _, hnil, rfl, by decide⟩
  | natural n =>
    obtain ⟨d, ds, hds⟩ := List.exists_cons_of_ne_nil (Nat.toDigits_ne_nil (b := 10) (n := n))
    have hdigit : d.isDigit = true := isDigit_of_mem_toDigits (hds ▸ List.mem_cons_self)
    refine ⟨[], d, ds, hnil, hds, isSpace_of_isDigit hdigit, ?_, ?_⟩
    · rintro rfl
      cases hdigit
    · rintro rfl
      cases hdigit
  | string s => exact ⟨[], _, _, hnil, rfl, by decide⟩
  | emptyArray _ => exact ⟨[], _, _, hnil, rfl, by decide⟩
  | array _ _ => exact ⟨[], _, _, hnil, rfl, by decide⟩
  | emptyObject _ => exact ⟨[], _, _, hnil, rfl, by decide⟩
  | object _ _ => exact ⟨[], _, _, hnil, rfl, by decide⟩
  | @padded _ gap _ behind blank _ _ ih =>
    obtain ⟨before, c, rest, hbefore, rfl, hc⟩ := ih
    refine ⟨gap ++ before, c, rest ++ behind, List.forall_mem_append.mpr ⟨blank, hbefore⟩, ?_, hc⟩
    rw [List.append_assoc, List.append_assoc, List.cons_append]
  | lastItem _ ih =>
    obtain ⟨before, c, rest, hbefore, rfl, hc⟩ := ih
    exact ⟨before, c, _, hbefore, List.append_assoc .., hc⟩
  | item _ _ ih =>
    obtain ⟨before, c, rest, hbefore, rfl, hc⟩ := ih
    exact ⟨before, c, _, hbefore, List.append_assoc .., hc⟩
  | lastEntry blank _ _ => exact ⟨_, _, _, blank, rfl, by decide⟩
  | entry blank _ _ _ => exact ⟨_, _, _, blank, rfl, by decide⟩

/-- A text is read as what it writes, whatever follows it. As much fuel as the text is long is
enough. -/
def Part.Reads (cs : List Char) : Part → Prop
  | value j => ∀ fuel rest, cs.length ≤ fuel → Ends rest →
      Json.value fuel (cs ++ rest) = some (j, rest)
  | padded j => ∀ fuel rest, cs.length ≤ fuel → Ends rest →
      ∃ behind, Blanks behind ∧ Json.value fuel (cs ++ rest) = some (j, behind ++ rest)
  | items js => ∀ fuel rest, cs.length ≤ fuel → Json.items fuel (cs ++ rest) = some (js, rest)
  | entries es => ∀ fuel rest, cs.length ≤ fuel → Json.entries fuel (cs ++ rest) = some (es, rest)

theorem Written.reads {p : Part} {cs : List Char} (h : Written p cs) : p.Reads cs := by
  induction h with
  | null =>
    rintro (_ | fuel) rest hfuel -
    · cases hfuel
    · rfl
  | boolTrue =>
    rintro (_ | fuel) rest hfuel -
    · cases hfuel
    · rfl
  | boolFalse =>
    rintro (_ | fuel) rest hfuel -
    · cases hfuel
    · rfl
  | natural n =>
    obtain ⟨d, ds, hds⟩ := List.exists_cons_of_ne_nil (Nat.toDigits_ne_nil (b := 10) (n := n))
    have hdigit : d.isDigit = true := isDigit_of_mem_toDigits (hds ▸ List.mem_cons_self)
    rintro (_ | fuel) rest hfuel hrest
    · rw [hds] at hfuel
      cases hfuel
    · have hnumber := number_toDigits n hrest
      rw [hds, List.cons_append] at hnumber ⊢
      rw [value_of_digit hdigit, hnumber]
  | string s =>
    rintro (_ | fuel) rest hfuel -
    · cases hfuel
    · exact value_quote fuel s rest
  | emptyArray blank =>
    rintro (_ | fuel) rest hfuel -
    · cases hfuel
    · rw [List.cons_append, List.append_assoc, List.singleton_append, value_emptyArray blank]
  | array inside ih =>
    rintro (_ | fuel) rest hfuel -
    · cases hfuel
    · have hitems := ih fuel rest (Nat.le_of_succ_le_succ hfuel)
      obtain ⟨before, c, cs, hbefore, rfl, hspace, hclose, -⟩ := inside.opens
      rw [List.append_assoc, List.cons_append] at hitems
      rw [List.cons_append, List.append_assoc, List.cons_append,
        value_bracket hbefore hspace hclose, hitems]
      rfl
  | emptyObject blank =>
    rintro (_ | fuel) rest hfuel -
    · cases hfuel
    · rw [List.cons_append, List.append_assoc, List.singleton_append, value_emptyObject blank]
  | object inside ih =>
    rintro (_ | fuel) rest hfuel -
    · cases hfuel
    · have hentries := ih fuel rest (Nat.le_of_succ_le_succ hfuel)
      obtain ⟨before, c, cs, hbefore, rfl, hspace, -, hclose⟩ := inside.opens
      rw [List.append_assoc, List.cons_append] at hentries
      rw [List.cons_append, List.append_assoc, List.cons_append, value_brace hbefore hspace hclose,
        hentries]
      rfl
  | @padded j before cs behind blank value blank' ih =>
    intro fuel rest hfuel hrest
    have hlength : cs.length ≤ fuel := by
      simp only [List.length_append] at hfuel
      omega
    refine ⟨behind, blank', ?_⟩
    rw [List.append_assoc, value_blanks blank, List.append_assoc]
    exact ih fuel _ hlength (ends_blanks blank' hrest)
  | lastItem item ih =>
    rintro (_ | fuel) rest hfuel
    · simp at hfuel
    · obtain ⟨behind, hbehind, hvalue⟩ :=
        ih fuel (']' :: rest) (by simpa using hfuel) (by simp [Ends, isNumeral])
      have hclose : (behind ++ ']' :: rest).dropWhile isSpace = ']' :: rest :=
        dropWhile_blanks hbehind _
      rw [List.append_assoc, List.singleton_append, Json.items, hvalue]
      simp only [hclose]
  | @item j js cs ds first rest ih ih' =>
    rintro (_ | fuel) after hfuel
    · simp at hfuel
    · simp only [List.length_append, List.length_cons] at hfuel
      obtain ⟨behind, hbehind, hvalue⟩ :=
        ih fuel (',' :: (ds ++ after)) (by omega) (by simp [Ends, isNumeral])
      have hcomma : (behind ++ ',' :: (ds ++ after)).dropWhile isSpace = ',' :: (ds ++ after) :=
        dropWhile_blanks hbehind _
      have hitems := ih' fuel after (by omega)
      rw [List.append_assoc, List.cons_append, Json.items, hvalue]
      simp only [hcomma, hitems]
      rfl
  | @lastEntry name j before behind cs blank blank' item ih =>
    rintro (_ | fuel) rest hfuel
    · simp at hfuel
    · simp only [List.length_append, List.length_cons] at hfuel
      obtain ⟨gap, hgap, hvalue⟩ :=
        ih fuel ('\x7d' :: rest) (by omega) (by simp [Ends, isNumeral])
      have hclose : (gap ++ '\x7d' :: rest).dropWhile isSpace = '\x7d' :: rest :=
        dropWhile_blanks hgap _
      have hkey := key_quote name blank blank' (cs ++ '\x7d' :: rest)
      simp only [List.append_assoc, List.cons_append, List.nil_append, Json.entries, hkey, hvalue,
        hclose]
  | @entry name j es before behind cs ds blank blank' first rest ih ih' =>
    rintro (_ | fuel) after hfuel
    · simp at hfuel
    · simp only [List.length_append, List.length_cons] at hfuel
      obtain ⟨gap, hgap, hvalue⟩ :=
        ih fuel (',' :: (ds ++ after)) (by omega) (by simp [Ends, isNumeral])
      have hcomma : (gap ++ ',' :: (ds ++ after)).dropWhile isSpace = ',' :: (ds ++ after) :=
        dropWhile_blanks hgap _
      have hkey := key_quote name blank blank' (cs ++ ',' :: (ds ++ after))
      have hentries := ih' fuel after (by omega)
      simp only [List.append_assoc, List.cons_append, Json.entries, hkey, hvalue, hcomma, hentries]
      rfl

/-! ## What is printed is written -/

/-- A value with no numbers but natural ones. -/
inductive Whole : Json → Prop
  | null : Whole null
  | bool (b : Bool) : Whole (bool b)
  | natural (n : Nat) : Whole (natural n)
  | string (s : String) : Whole (string s)
  | array {js : List Json} (items : ∀ j ∈ js, Whole j) : Whole (array js)
  | object {es : List (String × Json)} (values : ∀ e ∈ es, Whole e.2) : Whole (object es)

@[simp]
theorem whole_natural (n : Nat) : Whole (natural n) :=
  .natural n

@[simp]
theorem whole_string (s : String) : Whole (string s) :=
  .string s

@[simp]
theorem whole_array_iff {js : List Json} : Whole (array js) ↔ ∀ j ∈ js, Whole j := by
  constructor
  · rintro ⟨⟩
    assumption
  · exact .array

@[simp]
theorem whole_object_iff {es : List (String × Json)} : Whole (object es) ↔ ∀ e ∈ es, Whole e.2 := by
  constructor
  · rintro ⟨⟩
    assumption
  · exact .object

theorem blanks_nil : Blanks [] :=
  List.forall_mem_nil _

theorem blanks_space : Blanks [' '] := by
  simp [Blanks, isSpace]

theorem blanks_lineBreak (level : Nat) : Blanks (lineBreak level) := by
  intro c hc
  rcases List.mem_cons.mp hc with rfl | hc
  · rfl
  · rw [List.eq_of_mem_replicate hc]
    rfl

/-- Items that are written one by one, each behind a gap, with commas between them. -/
theorem written_items {gap behind : List Char} (hgap : Blanks gap) (hbehind : Blanks behind)
    {text : Json → List Char} (j : Json) (js : List Json)
    (h : ∀ x ∈ j :: js, Written (.value x) (text x)) :
    Written (.items (j :: js))
      (gap ++ text j ++ js.flatMap (fun x => ',' :: gap ++ text x) ++ behind ++ [']']) := by
  induction js generalizing j with
  | nil =>
    have hj := Written.padded hgap (h j List.mem_cons_self) hbehind
    simpa using hj.lastItem
  | cons k js ih =>
    have hj := Written.padded hgap (h j List.mem_cons_self) blanks_nil
    simpa using hj.item (ih k (List.forall_mem_cons.mp h).2)

/-- Entries that are written one by one, each behind a gap and with a gap behind its colon. -/
theorem written_entries {gap gap' behind : List Char} (hgap : Blanks gap) (hgap' : Blanks gap')
    (hbehind : Blanks behind) {text : Json → List Char} (e : String × Json)
    (es : List (String × Json)) (h : ∀ x ∈ e :: es, Written (.value x.2) (text x.2)) :
    Written (.entries (e :: es))
      (gap ++ quote e.1 ++ ':' :: gap' ++ text e.2 ++
        es.flatMap (fun x => ',' :: gap ++ quote x.1 ++ ':' :: gap' ++ text x.2) ++ behind ++
          ['\x7d']) := by
  induction es generalizing e with
  | nil =>
    have he := Written.padded hgap' (h e List.mem_cons_self) hbehind
    simpa using Written.lastEntry hgap blanks_nil he
  | cons d es ih =>
    have he := Written.padded hgap' (h e List.mem_cons_self) blanks_nil
    simpa using Written.entry hgap blanks_nil he (ih d (List.forall_mem_cons.mp h).2)

theorem layoutItems_eq (level : Nat) (js : List Json) :
    layoutItems level js = js.flatMap fun j => ',' :: lineBreak level ++ layout level j := by
  induction js with
  | nil => rw [layoutItems, List.flatMap_nil]
  | cons j js ih => rw [layoutItems, ih, List.flatMap_cons]

theorem layoutEntries_eq (level : Nat) (es : List (String × Json)) :
    layoutEntries level es = es.flatMap fun e =>
      ',' :: lineBreak level ++ quote e.1 ++ ':' :: [' '] ++ layout level e.2 := by
  induction es with
  | nil => rw [layoutEntries, List.flatMap_nil]
  | cons e es ih => rw [layoutEntries, ih, List.flatMap_cons]

theorem lineItems_eq (js : List Json) : lineItems js = js.flatMap fun j => ',' :: [] ++ line j := by
  induction js with
  | nil => rw [lineItems, List.flatMap_nil]
  | cons j js ih => rw [lineItems, ih, List.flatMap_cons]; rfl

theorem lineEntries_eq (es : List (String × Json)) :
    lineEntries es = es.flatMap fun e => ',' :: [] ++ quote e.1 ++ ':' :: [] ++ line e.2 := by
  induction es with
  | nil => rw [lineEntries, List.flatMap_nil]
  | cons e es ih => rw [lineEntries, ih, List.flatMap_cons]; simp

theorem Whole.written_layout {j : Json} (h : Whole j) (level : Nat) :
    Written (.value j) (layout level j) := by
  induction h generalizing level with
  | null => exact .null
  | bool b => cases b <;> constructor
  | natural n => exact .natural n
  | string s => exact .string s
  | @array js items ih =>
    cases js with
    | nil => exact .emptyArray blanks_nil
    | cons j js =>
      rw [layout, layoutItems_eq]
      exact .array (written_items (blanks_lineBreak _) (blanks_lineBreak _) j js
        fun x hx => ih x hx (level + 1))
  | @object es values ih =>
    cases es with
    | nil => exact .emptyObject blanks_nil
    | cons e es =>
      rw [layout, layoutEntries_eq]
      exact .object (written_entries (blanks_lineBreak _) blanks_space (blanks_lineBreak _) e es
        fun x hx => ih x hx (level + 1))

theorem Whole.written_line {j : Json} (h : Whole j) : Written (.value j) (line j) := by
  induction h with
  | null => exact .null
  | bool b => cases b <;> constructor
  | natural n => exact .natural n
  | string s => exact .string s
  | @array js items ih =>
    cases js with
    | nil => exact .emptyArray blanks_nil
    | cons j js =>
      have hitems := written_items blanks_nil blanks_nil j js ih
      rw [line, lineItems_eq]
      exact .array (by simpa using hitems)
  | @object es values ih =>
    cases es with
    | nil => exact .emptyObject blanks_nil
    | cons e es =>
      have hentries := written_entries blanks_nil blanks_nil blanks_nil e es ih
      rw [line, lineEntries_eq]
      exact .object (by simpa using hentries)

/-- A text that writes a value is parsed as that value, also with blanks behind it. -/
theorem parse_of_written {j : Json} {text : String} {cs behind : List Char}
    (h : Written (.value j) cs) (hbehind : Blanks behind) (htext : text.toList = cs ++ behind) :
    parse text = some j := by
  have hnone : Ends [] := nofun
  have hends : Ends behind := by simpa using ends_blanks hbehind hnone
  have hread : Json.value ((cs ++ behind).length + 1) (cs ++ behind) = some (j, behind) :=
    h.reads _ behind (by rw [List.length_append]; omega) hends
  rw [parse, htext]
  simp only [hread]
  rw [if_pos (List.all_eq_true.mpr hbehind)]

section Whole

variable {j : Json} (h : Whole j)
include h

theorem parse_pretty : parse (pretty j) = some j :=
  parse_of_written (h.written_layout 0) blanks_nil
    (by rw [pretty, String.toList_ofList, List.append_nil])

/-- A text that ends in a line break is read as well. -/
theorem parse_pretty_lineBreak : parse (pretty j ++ "\n") = some j :=
  parse_of_written (h.written_layout 0) (blanks_lineBreak 0)
    (by rw [String.toList_append, pretty, String.toList_ofList]; rfl)

theorem parse_compact : parse (compact j) = some j :=
  parse_of_written h.written_line blanks_nil
    (by rw [compact, String.toList_ofList, List.append_nil])

end Whole

end CodeSmell.Json
