import DataBinding.Operation.Parameters
import DataBinding.Value.Printer

/-!
# Operations that tell and change the kind of a value
-/

namespace DataBinding.Kinds

/-- The double without its fraction, if that is a 64-bit integer. -/
def truncate? (x : Float) : Option Int64 :=
  if x.isFinite then
    let n : Int := (Decimal.ofFloat x).floor
    toInt64? (if x < 0.0 then -n else n)
  else none

/-- Whether the parameter is `null`. -/
def isNull (params : List Value) : Guarded Value :=
  (Params.param params 0).map fun v => .bool v.isNull

/-- The number of characters, elements or fields. -/
def size? : Value → Option Nat
  | .string s => some s.toList.length
  | .array items => some items.length
  | .object fields => some fields.size
  | _ => none

/-- Whether a text, an array or an object has nothing in it. -/
def isEmpty (params : List Value) : Guarded Value :=
  (Params.read size? params 0).map fun n => .bool (n == 0)

/-- The size of a text, an array or an object. -/
def length (params : List Value) : Guarded Value :=
  (Params.read size? params 0).map Value.ofNat

/-- A number as an integer: doubles lose their fraction. -/
def int (params : List Value) : Guarded Value :=
  (Params.read Value.number? params 0).bind fun
    | .int n => .ok (.int n)
    | .double x =>
      match truncate? x with
      | some n => .ok (.int n)
      | none => Guarded.fail .overflow

/-- A number as a double. -/
def double (params : List Value) : Guarded Value :=
  (Params.read Value.number? params 0).map fun n => .double n.toFloat

/-- The text of a string, a number or a truth value. -/
def text? : Value → Option String
  | .null | .array _ | .object _ => none
  | v => some v.text

/-- A string, a number or a truth value as a string. -/
def string (params : List Value) : Guarded Value :=
  (Params.read text? params 0).map .string

/-- The operations on kinds. -/
def operations : List Builtin :=
  [⟨"isNull", .fixed 1, isNull⟩, ⟨"isEmpty", .fixed 1, isEmpty⟩, ⟨"length", .fixed 1, length⟩,
   ⟨"int", .fixed 1, int⟩, ⟨"double", .fixed 1, double⟩, ⟨"string", .fixed 1, string⟩]

end DataBinding.Kinds
