import DataBinding.Decimal

/-!
# The shortest decimal that reads back

A double is written with the fewest digits from which it can be read again, and of the decimals
with that many digits the nearest to it is taken. With `n` digits only the two decimals next to the
double's exact value can be nearest, so these two are tried for `n` = 1, 2, and so on. Seventeen
digits tell any two doubles apart.

* `Decimal.shortest`: the decimal that is written.
-/

namespace DataBinding.Decimal

/-- Which of two equally near decimals is taken: the larger, or the one with an even last digit. -/
inductive Tie where
  | up
  | even

/-- The two decimals next to the number that lack its last `drop` digits, the nearer one first. -/
def neighbours (d : Decimal) (drop : Nat) (tie : Tie) : List Decimal :=
  let unit := Nat.pow 10 drop
  let low := d.digits / unit
  let below : Decimal := ⟨low, d.exponent + drop⟩
  let above : Decimal := ⟨low + 1, d.exponent + drop⟩
  let upward :=
    match compare (2 * (d.digits % unit)) unit, tie with
    | .lt, _ => false
    | .gt, _ => true
    | .eq, .up => true
    | .eq, .even => low % 2 == 1
  if upward then [above, below] else [below, above]

/-- Whether reading the decimal gives the double. -/
def readsBack (d : Decimal) (x : Float) : Bool :=
  d.toFloat == x

/-- The same number without trailing zeros. -/
def stripZeros (d : Decimal) : Decimal :=
  if d.digits = 0 then ⟨0, 0⟩
  else if d.digits % 10 = 0 then stripZeros ⟨d.digits / 10, d.exponent + 1⟩
  else d
termination_by d.digits
decreasing_by exact Nat.div_lt_self (by omega) (by omega)

/-- The shortest decimal from which the non-negative finite double `x` can be read again. -/
def shortest (tie : Tie) (x : Float) : Decimal :=
  let exact := ofFloat x
  let width := (Nat.toDigits 10 exact.digits).length
  let found := (List.range 17).findSome? fun n =>
    (exact.neighbours (width - (n + 1)) tie).find? (·.readsBack x)
  (found.getD exact).stripZeros

end DataBinding.Decimal
