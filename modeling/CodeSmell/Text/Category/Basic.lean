/-!
# Classes of characters

* `Category` : the classes of Unicode's general categories that names and quoted text tell apart;
* `Run` : a stretch of code points of one class, or of two classes in turn, as the cased letters
  of the extended alphabets come.
-/

namespace CodeSmell.Text

/-- What a character is, as far as names and quoted text care. -/
inductive Category where
  /-- `Lu` -/
  | upper
  /-- `Ll` -/
  | lower
  /-- `Lt`, `Lm` and `Lo` -/
  | letter
  /-- `Nd` -/
  | digit
  /-- `Mn`, `Me` and the spacing marks that extend a grapheme -/
  | extending
  /-- every other mark, `Mc` -/
  | mark
  /-- `Pc` -/
  | connector
  /-- any other visible character, and the plain space -/
  | graphic
  /-- controls, formats, separators, and code points that are private or unassigned -/
  | hidden
deriving DecidableEq, Repr, Inhabited

/-- The code points from `start` on: those at an even distance are `even`, the others `odd`. -/
structure Run where
  start : Nat
  even : Category
  odd : Category
deriving Repr

namespace Run

/-- The class of code point `n`, which is not below the start of the run. -/
def category (r : Run) (n : Nat) : Category :=
  if (n - r.start) % 2 = 0 then r.even else r.odd

abbrev all (c : Category) (start : Nat) : Run := ⟨start, c, c⟩

abbrev upper : Nat → Run := all .upper
abbrev lower : Nat → Run := all .lower
abbrev letter : Nat → Run := all .letter
abbrev digit : Nat → Run := all .digit
abbrev extending : Nat → Run := all .extending
abbrev mark : Nat → Run := all .mark
abbrev connector : Nat → Run := all .connector
abbrev graphic : Nat → Run := all .graphic
abbrev hidden : Nat → Run := all .hidden

/-- Upper and lower case in turn, upper case first. -/
abbrev upperLower (start : Nat) : Run := ⟨start, .upper, .lower⟩

/-- Upper and lower case in turn, lower case first. -/
abbrev lowerUpper (start : Nat) : Run := ⟨start, .lower, .upper⟩

end Run

end CodeSmell.Text
