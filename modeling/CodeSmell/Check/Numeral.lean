import CodeSmell.Text.Blank

/-!
# The value of a number in the source

A number is written with an optional sign, underscores between its digits, a radix in front and a
letter for its type behind. Its value is taken to the nearest binary floating-point number of 64
bits, a tie going to the even one.

* `Decimal` : a mantissa times a power of ten;
* `rounded?` : which of 0, 1 and 2 is nearest to a fraction, if one of them is;
* `smallValue?` : the value of a number, if it is a whole number from -2 to 2 or is written with a
  radix.
-/

namespace CodeSmell.Numeral

/-- A number in scientific notation. -/
structure Decimal where
  negative : Bool
  mantissa : Nat
  exponent : Int
deriving DecidableEq, Repr, Inhabited

def digitsValue (cs : List Char) : Nat :=
  cs.foldl (fun n c => 10 * n + (c.toNat - 48)) 0

/-- Takes off a sign: whether it is a minus, and the rest. -/
def signed : List Char → Bool × List Char
  | '-' :: rest => (true, rest)
  | '+' :: rest => (false, rest)
  | cs => (false, cs)

/-- What stands behind a mantissa: nothing, or `e` and a whole number. -/
def exponent? : List Char → Option Int
  | [] => some 0
  | 'e' :: rest =>
    let (negative, digits) := signed rest
    if digits.isEmpty || !digits.all Char.isDigit then none
    else if negative then some (-(digitsValue digits : Int))
    else some (digitsValue digits)
  | _ => none

/-- Reads a number in decimal digits; digits may be missing on one side of the point. -/
def Decimal.parse? (cs : List Char) : Option Decimal :=
  let (negative, unsigned) := signed cs
  let whole := unsigned.takeWhile Char.isDigit
  let (fraction, rest) :=
    match unsigned.dropWhile Char.isDigit with
    | '.' :: rest => (rest.takeWhile Char.isDigit, rest.dropWhile Char.isDigit)
    | rest => ([], rest)
  if whole.isEmpty && fraction.isEmpty then none
  else (exponent? rest).map fun e =>
    ⟨negative, digitsValue (whole ++ fraction), e - fraction.length⟩

/-- The one of 0, 1 and 2 that `numerator / denominator` rounds to. Numbers of 64 bits lie
2^-1074 apart around zero, 2^-53 below one and 2^-52 above it, and twice as far apart around two. -/
def rounded? (numerator denominator : Nat) : Option Nat :=
  if numerator * Nat.pow 2 1075 ≤ denominator then some 0
  else if denominator * (Nat.pow 2 54 - 1) ≤ numerator * Nat.pow 2 54 &&
      numerator * Nat.pow 2 53 ≤ denominator * (Nat.pow 2 53 + 1) then some 1
  else if denominator * (Nat.pow 2 54 - 1) ≤ numerator * Nat.pow 2 53 &&
      numerator * Nat.pow 2 52 ≤ denominator * (Nat.pow 2 53 + 1) then some 2
  else none

/-- The one of 0, 1 and 2 that the magnitude rounds to. Where the power of ten alone decides, it
is not computed. -/
def Decimal.magnitude? (d : Decimal) : Option Nat :=
  let digits : Int := (Nat.toDigits 10 d.mantissa).length
  if d.mantissa = 0 then some 0
  else if digits + d.exponent < -400 then some 0
  else if 400 < digits + d.exponent then none
  else if 0 ≤ d.exponent then rounded? (d.mantissa * Nat.pow 10 d.exponent.toNat) 1
  else rounded? d.mantissa (Nat.pow 10 (-d.exponent).toNat)

/-- The value, if it rounds to a whole number from -2 to 2. -/
def Decimal.smallValue? (d : Decimal) : Option Int :=
  d.magnitude?.map fun n => if d.negative then -(n : Int) else n

def digitValue? (c : Char) : Option Nat :=
  if c.isDigit then some (c.toNat - 48)
  else if 'a' ≤ c && c ≤ 'f' then some (c.toNat - 87)
  else none

def inRadix? (radix : Nat) : Nat → List Char → Option Nat
  | n, [] => some n
  | n, c :: rest =>
    match digitValue? c with
    | some d => if d < radix then inRadix? radix (radix * n + d) rest else none
    | none => none

/-- A whole number of at most 64 bits in a radix, behind an optional plus. -/
def whole? (radix : Nat) (cs : List Char) : Option Nat :=
  let digits :=
    match cs with
    | '+' :: rest => rest
    | _ => cs
  if digits.isEmpty then none
  else (inRadix? radix 0 digits).filter (· < Nat.pow 2 64)

/-- Leaves out the letters at the end that stand for a type. -/
def withoutSuffix (letters cs : List Char) : List Char :=
  (cs.reverse.dropWhile letters.contains).reverse

/-- The value of a number without a minus sign in front. -/
def unsignedValue? (cs : List Char) : Option Int :=
  match cs with
  | '0' :: 'x' :: digits => (whole? 16 (withoutSuffix ['u', 'l'] digits)).map Int.ofNat
  | '0' :: 'b' :: digits => (whole? 2 (withoutSuffix ['u', 'l'] digits)).map Int.ofNat
  | digits =>
    (Decimal.parse? (withoutSuffix ['u', 'l', 'f', 'd', 'm'] digits)).bind Decimal.smallValue?

/-- The characters that count for the value: no underscores, and all letters small. -/
def normalized (cs : List Char) : List Char :=
  (cs.filter (· != '_')).map Char.toLower

/-- The value of a number, if it has been found to be a whole number. -/
def smallValue? (text : String) : Option Int :=
  match text.toList with
  | '-' :: rest => (unsignedValue? (normalized (rest.dropWhile Text.isBlank))).map fun n => -n
  | cs => unsignedValue? (normalized cs)

end CodeSmell.Numeral
