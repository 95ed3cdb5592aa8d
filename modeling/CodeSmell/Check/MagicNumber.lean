import CodeSmell.Check.Numeral
import CodeSmell.Finding.Basic
import CodeSmell.Source

/-!
# Magic numbers

Every number is magic but -1, 0, 1 and 2, however they are written.
-/

namespace CodeSmell

/-- The values that need no name. -/
def commonValues : List Int := [-1, 0, 1, 2]

def isCommonLiteral (text : String) : Bool :=
  (Numeral.smallValue? text).any commonValues.contains

namespace Facts

/-- The magic numbers, in the order they are visited. -/
def magicNumbers (f : Facts) : List MagicNumber :=
  (f.literals.filter fun l => !isCommonLiteral l.text).map fun l =>
    { value := l.text, file := f.path, line := l.position.line }

end Facts

namespace Source

def magicNumbers (s : Source) : List MagicNumber :=
  s.facts.toList.flatMap (·.magicNumbers)

end Source

end CodeSmell
