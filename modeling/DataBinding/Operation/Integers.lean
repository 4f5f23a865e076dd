import DataBinding.Operation.Halt

/-!
# Computing with integers of 64 bits

A plain operation breaks off where its result does not fit, or where it divides by zero. A checked
one finds out first whether the plain one would, and then gives nothing instead.

* `Integers`: a type of integers of limited size; `signed` and `positions` are two.
* `Integers.plain`, `Integers.checked`: the two ways to compute.
-/

namespace DataBinding

/-- What is computed of two integers. -/
inductive IntOp where
  | add
  | sub
  | mul
  | div
  deriving Repr, DecidableEq

/-- The result for integers of any size. Division is toward zero. -/
def IntOp.exact : IntOp → Int → Int → Int
  | .add => (· + ·)
  | .sub => (· - ·)
  | .mul => (· * ·)
  | .div => Int.tdiv

/-- Integers of limited size. -/
structure Integers (α : Type) where
  value : α → Int
  /-- The one with the value, if there is one. -/
  ofInt? : Int → Option α

/-- The integers of values. -/
def signed : Integers Int64 where
  value := Int64.toInt
  ofInt? := toInt64?

/-- Positions and lengths. -/
def positions : Integers Nat where
  value := Int.ofNat
  ofInt? n := if 0 ≤ n ∧ n < UInt64.size then some n.toNat else none

namespace Integers

variable {α : Type}

/-- The operation as it is. -/
def plain (t : Integers α) (op : IntOp) (a b : α) : Guarded α :=
  if op = .div ∧ t.value b = 0 then Guarded.breach (.zeroDivision (t.value a))
  else
    match t.ofInt? (op.exact (t.value a) (t.value b)) with
    | some c => .ok c
    | none => Guarded.breach (.overflow (op.exact (t.value a) (t.value b)))

/-- Whether the operation has a result. -/
def allows (t : Integers α) (op : IntOp) (a b : α) : Bool :=
  !(op == .div && t.value b == 0) && (t.ofInt? (op.exact (t.value a) (t.value b))).isSome

/-- The result of the operation, if it has one. -/
def checked (t : Integers α) (op : IntOp) (a b : α) : Guarded (Option α) :=
  if t.allows op a b then (t.plain op a b).map some else .ok none

end Integers

end DataBinding
