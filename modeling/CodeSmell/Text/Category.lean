import CodeSmell.Text.Category.Table

/-!
# The class of a character

* `category` : the class of a character, read off `categoryRuns`;
* `isLetter`, `isDigit` : letters of any case, and decimal digits.

Each character has one class, so that no character is both upper and lower case.
-/

namespace CodeSmell.Text

/-- The class of code point `n` in the last run that starts at or before it; `before` is the class
that the runs passed so far give. -/
def categoryIn (n : Nat) (before : Category) : List Run → Category
  | [] => before
  | r :: rest => if n < r.start then before else categoryIn n (r.category n) rest

def category (c : Char) : Category :=
  categoryIn c.toNat .hidden categoryRuns

/-- A letter, cased or not. -/
def isLetter (c : Char) : Bool :=
  match category c with
  | .upper | .lower | .letter => true
  | _ => false

/-- A decimal digit of any script. -/
def isDigit (c : Char) : Bool :=
  category c == .digit

end CodeSmell.Text
