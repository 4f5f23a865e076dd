import DataBinding.Decimal.Shortest

/-!
# Decimals and doubles as text

* `Decimal.plain`: digits with a point and at least one digit after it, such as `120.0` or `0.05`.
* `Decimal.scientific`: one digit, then the point and the others if any, and the exponent with its
  sign, such as `5e-324` or `1.5e+20`.
* `plainText`: a double in a template is always plain; infinities and NaN have names.
* `jsonText`: a double in JSON text is plain while its leading digit lies within sixteen places
  before or five after the point, and scientific beyond; what is not finite is `null`.
-/

namespace DataBinding

namespace Decimal

/-- The digits, most significant first. -/
def digitChars (d : Decimal) : List Char :=
  Nat.toDigits 10 d.digits

/-- The number with a point and at least one digit on each side of it. -/
def plain (d : Decimal) : List Char :=
  if 0 ≤ d.exponent then d.digitChars ++ List.replicate d.exponent.toNat '0' ++ ['.', '0']
  else
    let places := (-d.exponent).toNat
    let padded := List.replicate (places + 1 - d.digitChars.length) '0' ++ d.digitChars
    padded.take (padded.length - places) ++ '.' :: padded.drop (padded.length - places)

/-- The power of ten of the leading digit. -/
def leading (d : Decimal) : Int :=
  d.exponent + d.digitChars.length - 1

/-- The number with its point after the leading digit, and the power of ten that this takes. -/
def scientific (d : Decimal) : List Char :=
  let mantissa :=
    match d.digitChars with
    | c :: c' :: rest => c :: '.' :: c' :: rest
    | cs => cs
  mantissa ++ 'e' :: (if d.leading < 0 then '-' else '+') :: Nat.toDigits 10 d.leading.natAbs

/-- Plain notation for leading digits from the fifth place after the point to the sixteenth before
it, scientific notation for all others. -/
def json (d : Decimal) : List Char :=
  if -5 ≤ d.leading && d.leading ≤ 15 then d.plain else d.scientific

end Decimal

/-- A minus sign for the negative doubles, -0.0 among them. -/
def signChars (x : Float) : List Char :=
  if x.toBits >>> 63 = 1 then ['-'] else []

/-- A double as it stands in a template. -/
def plainText (x : Float) : List Char :=
  if x.isNaN then ['N', 'a', 'N']
  else if x.isInf then signChars x ++ ['i', 'n', 'f']
  else signChars x ++ (Decimal.shortest .up x.abs).plain

/-- A double as it stands in JSON text. -/
def jsonText (x : Float) : List Char :=
  if x.isFinite then signChars x ++ (Decimal.shortest .even x.abs).json
  else ['n', 'u', 'l', 'l']

end DataBinding
