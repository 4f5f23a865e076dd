import DataBinding.Decimal.Reader
import DataBinding.Operation.Integers

/-!
# Numbers

The operands of arithmetic and comparison: 64-bit integers and doubles. Texts that spell a number
count as that number, so `"2"` is the integer 2 and `"2.0"` the double 2.0.

Integers stay exact: a result that does not fit 64 bits is no result. If either operand is a double
both are taken as doubles, and a result that is not finite is no result.

* `Value.number?`: what a value counts as.
* `Number.checkedAdd` and the like: how the functions of operations compute.
* `Number.add` and the like: the results.
* `Number.compare?`: the order of two numbers.

In the interface: `parse_number` and `as_number`, `checked_add` and the like, `compare`.
-/

namespace DataBinding

/-- A numeric operand. -/
inductive Number where
  | int (n : Int64)
  | double (x : Float)

namespace Number

/-- The number as a double, the nearest one for an integer. -/
def toFloat : Number → Float
  | .int n => Float.ofInt n.toInt
  | .double x => x

/-- The number as a value. -/
def toValue : Number → Value
  | .int n => .int n
  | .double x => .double x

/-- Equality within a kind: an integer never equals a double, and NaN not itself. -/
def beq : Number → Number → Bool
  | .int a, .int b => a == b
  | .double x, .double y => x == y
  | _, _ => false

instance : BEq Number := ⟨beq⟩

/-- The finite double that the text spells. -/
def readDouble? (cs : List Char) : Option Number :=
  match readFloat? cs with
  | some x => if x.isFinite then some (.double x) else none
  | none => none

/-- The number that the text spells: an integer if it is spelled as one and fits, else a finite
double. -/
def read? (cs : List Char) : Option Number :=
  match (readInt? cs).bind toInt64? with
  | some n => some (.int n)
  | none => readDouble? cs

/-- Computes with two integers by a checked operation, and with any other two numbers as doubles. -/
def checked (op : IntOp) (onDoubles : Float → Float → Float) :
    Number → Number → Guarded (Option Number)
  | .int a, .int b => (signed.checked op a b).map (·.map .int)
  | a, b =>
    let x := onDoubles a.toFloat b.toFloat
    .ok (if x.isFinite then some (.double x) else none)

/-- Whether the number is zero of its kind, -0.0 included. -/
def isZero : Number → Bool
  | .int n => n == 0
  | .double x => x == 0.0

/-- Adds. -/
def checkedAdd : Number → Number → Guarded (Option Number) :=
  checked .add (· + ·)

/-- Subtracts. -/
def checkedSub : Number → Number → Guarded (Option Number) :=
  checked .sub (· - ·)

/-- Multiplies. -/
def checkedMul : Number → Number → Guarded (Option Number) :=
  checked .mul (· * ·)

/-- Divides, integers toward zero. Nothing is divided by zero. -/
def checkedDiv (a b : Number) : Guarded (Option Number) :=
  if b.isZero then .ok none else checked .div (· / ·) a b

/-- The result of a computation, if it has one. -/
def result (r : Guarded (Option Number)) : Option Number :=
  r.toOption.join

/-- The sum. -/
def add (a b : Number) : Option Number :=
  result (checkedAdd a b)

/-- The difference. -/
def sub (a b : Number) : Option Number :=
  result (checkedSub a b)

/-- The product. -/
def mul (a b : Number) : Option Number :=
  result (checkedMul a b)

/-- The quotient. -/
def div (a b : Number) : Option Number :=
  result (checkedDiv a b)

/-- The order of two numbers: exact between integers, else that of doubles, where NaN has no
place. -/
def compare? : Number → Number → Option Ordering
  | .int a, .int b => some (compare a.toInt b.toInt)
  | a, b =>
    let x := a.toFloat
    let y := b.toFloat
    if x < y then some .lt
    else if x == y then some .eq
    else if y < x then some .gt
    else none

end Number

/-- The number that a value counts as in arithmetic: its own for the numeric kinds, the one it
spells for a text. -/
def Value.number? : Value → Option Number
  | .int n => some (.int n)
  | .double x => some (.double x)
  | .string s => Number.read? s.toList
  | _ => none

end DataBinding
