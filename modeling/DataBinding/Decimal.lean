/-!
# Decimal numbers

`Decimal` is a non-negative number `digits * 10 ^ exponent`. Every finite double has one that
equals its magnitude, and every decimal has a nearest double.

* `Decimal.ofFloat`: the magnitude of a finite double, exactly.
* `Decimal.toFloat`: the nearest double, infinite when the number is too large.
* `Decimal.floor`: the whole part.
-/

namespace DataBinding

/-- The number `digits * 10 ^ exponent`. -/
structure Decimal where
  digits : Nat
  exponent : Int
  deriving Repr, DecidableEq

namespace Decimal

/-- The double nearest to the number; of two equally near, the even one. -/
def toFloat (d : Decimal) : Float :=
  Float.ofScientific d.digits (decide (d.exponent < 0)) d.exponent.natAbs

/-- The magnitude of a finite double. A double is a whole number of 53 bits times a power of two,
and a negative power of two is a power of five with the point moved. -/
def ofFloat (x : Float) : Decimal :=
  let bits : Nat := x.toBits.toNat
  let fraction : Nat := bits % Nat.pow 2 52
  let biased : Nat := bits / Nat.pow 2 52 % Nat.pow 2 11
  let mantissa : Nat := if biased = 0 then fraction else Nat.pow 2 52 + fraction
  let scale : Int := if biased = 0 then -1074 else (biased : Int) - 1075
  if 0 ≤ scale then ⟨mantissa * Nat.pow 2 scale.toNat, 0⟩
  else ⟨mantissa * Nat.pow 5 (-scale).toNat, scale⟩

/-- The whole part of the number. -/
def floor (d : Decimal) : Nat :=
  if 0 ≤ d.exponent then d.digits * Nat.pow 10 d.exponent.toNat
  else d.digits / Nat.pow 10 (-d.exponent).toNat

end Decimal

end DataBinding
