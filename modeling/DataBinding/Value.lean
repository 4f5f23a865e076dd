import DataBinding.Entries

/-!
# Values

A value is data of no fixed type, as JSON has it, except that 64-bit integers and doubles are kinds
of their own. `null` also stands for what is absent.

Two values are equal, `v == w`, when they have the same kind and content: an integer never equals a
double, NaN equals itself, and objects are equal when they have the same keys with equal values, in
whatever order.

Out of scope: conversions between values and the types of a host program.
-/

namespace DataBinding

/-- The kinds of values. -/
inductive Kind where
  | null
  | bool
  | int
  | double
  | string
  | array
  | object
  deriving Repr, DecidableEq

/-- The kind's name in messages. -/
def Kind.name : Kind → String
  | .null => "null"
  | .bool => "bool"
  | .int => "int"
  | .double => "double"
  | .string => "string"
  | .array => "array"
  | .object => "object"

/-- Data of no fixed type. -/
inductive Value where
  | null
  | bool (b : Bool)
  | int (n : Int64)
  | double (x : Float)
  | string (s : String)
  | array (items : List Value)
  | object (fields : Entries Value)
  deriving Inhabited

/-- The 64-bit integer with the value `n`, if `n` is in range. -/
def toInt64? (n : Int) : Option Int64 :=
  if Int64.minValue.toInt ≤ n ∧ n ≤ Int64.maxValue.toInt then some (Int64.ofInt n) else none

namespace Value

/-- The kind of a value. -/
def kind : Value → Kind
  | .null => .null
  | .bool _ => .bool
  | .int _ => .int
  | .double _ => .double
  | .string _ => .string
  | .array _ => .array
  | .object _ => .object

/-- Whether the value is `null`. -/
def isNull : Value → Bool
  | .null => true
  | _ => false

/-! ## The content of a value of a given kind -/

def bool? : Value → Option Bool
  | .bool b => some b
  | _ => none

def int? : Value → Option Int64
  | .int n => some n
  | _ => none

/-- The double, or the double nearest to the integer. -/
def double? : Value → Option Float
  | .int n => some (Float.ofInt n.toInt)
  | .double x => some x
  | _ => none

def string? : Value → Option String
  | .string s => some s
  | _ => none

def array? : Value → Option (List Value)
  | .array items => some items
  | _ => none

def object? : Value → Option (Entries Value)
  | .object fields => some fields
  | _ => none

/-- The elements of an array; none for another kind. -/
def items (v : Value) : List Value :=
  v.array?.getD []

/-- The fields of an object; none for another kind. -/
def fields (v : Value) : Entries Value :=
  v.object?.getD .empty

/-! ## Values of other data -/

/-- A double as a value. A double that is not finite has no JSON form and becomes `null`. -/
def ofFloat (x : Float) : Value :=
  if x.isFinite then .double x else .null

/-- A natural number as a value: an integer while it fits, else the nearest double. -/
def ofNat (n : Nat) : Value :=
  match toInt64? n with
  | some i => .int i
  | none => .double (Float.ofNat n)

/-! ## Equality -/

/-- Whether two doubles are the same value: equal as numbers, or both NaN. -/
def sameDouble (x y : Float) : Bool :=
  x == y || (x.isNaN && y.isNaN)

mutual

/-- Equality of values. -/
def beq : Value → Value → Bool
  | .null, .null => true
  | .bool a, .bool b => a == b
  | .int a, .int b => a == b
  | .double x, .double y => sameDouble x y
  | .string s, .string t => s == t
  | .array xs, .array ys => beqItems xs ys
  | .object ⟨es⟩, .object ⟨fs⟩ =>
    (fs.all fun f => (Entries.find f.1 es).isSome) && beqFields [] es fs
  | _, _ => false

/-- Equality of arrays, element by element. -/
def beqItems : List Value → List Value → Bool
  | [], [] => true
  | x :: xs, y :: ys => beq x y && beqItems xs ys
  | _, _ => false

/-- Whether `fs` has every key of the first list with an equal value. A pair whose key was `seen`
before is hidden by the earlier pair and counts for nothing. -/
def beqFields (seen : List String) : List (String × Value) → List (String × Value) → Bool
  | [], _ => true
  | (k, v) :: es, fs =>
    (seen.contains k ||
      match Entries.find k fs with
      | some w => beq v w
      | none => false) &&
    beqFields (k :: seen) es fs

end

instance : BEq Value := ⟨beq⟩

end Value

end DataBinding
