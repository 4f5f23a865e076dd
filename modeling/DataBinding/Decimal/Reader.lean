import DataBinding.Decimal

/-!
# Reading numbers

* `readInt?`: an optional sign and digits.
* `readFloat?`: an optional sign, digits with at most one point among or beside them, and an
  optional exponent. The double is the nearest to the number, infinite when it is too large.
-/

namespace DataBinding

/-- Takes a sign off the front; `true` for a minus. -/
def splitSign : List Char → Bool × List Char
  | '-' :: cs => (true, cs)
  | '+' :: cs => (false, cs)
  | cs => (false, cs)

/-- The number spelled by decimal digits, leading zeros included. -/
def readNat? (cs : List Char) : Option Nat :=
  if cs ≠ [] ∧ cs.all Char.isDigit = true then some (Nat.ofDigitChars 10 cs 0) else none

/-- The integer spelled by an optional sign and digits. -/
def readInt? (cs : List Char) : Option Int :=
  (readNat? (splitSign cs).2).map fun n => if (splitSign cs).1 then -(n : Int) else n

/-- The digits after a point, if one comes first, and the text after them. -/
def splitFraction : List Char → List Char × List Char
  | '.' :: cs => (cs.takeWhile Char.isDigit, cs.dropWhile Char.isDigit)
  | cs => ([], cs)

/-- The power of ten that the text gives: none at all, or one marked by `e` or `E`. -/
def readExponent? : List Char → Option Int
  | [] => some 0
  | c :: cs => if c = 'e' ∨ c = 'E' then readInt? cs else none

/-- The number spelled by digits, with at most one point among or beside them, and an optional
exponent. -/
def Decimal.read? (cs : List Char) : Option Decimal :=
  let whole := cs.takeWhile Char.isDigit
  let (fraction, rest) := splitFraction (cs.dropWhile Char.isDigit)
  if whole = [] ∧ fraction = [] then none
  else (readExponent? rest).map fun e =>
    ⟨Nat.ofDigitChars 10 (whole ++ fraction) 0, e - fraction.length⟩

/-- The double nearest to the number that the text spells. -/
def readFloat? (cs : List Char) : Option Float :=
  (Decimal.read? (splitSign cs).2).map fun d =>
    if (splitSign cs).1 then -d.toFloat else d.toFloat

end DataBinding
