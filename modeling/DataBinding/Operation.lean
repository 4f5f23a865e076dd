import DataBinding.Value

/-!
# Operations

An operation is a named function of already evaluated parameters. It says how many it takes, and is
only run on that many.

* `Operation.call`: checks the number of parameters, then runs the operation.
* `OperationError`: why an operation has no result.

In the interface: `assert_arity` and `call`. Out of scope: operations that do more than compute what
they give back.
-/

namespace DataBinding

/-- How many parameters an operation takes. -/
inductive Arity where
  | any
  | fixed (n : Nat)
  /-- At least `min`, and at most `max` if there is one. -/
  | range (min : Nat) (max : Option Nat)
  deriving Repr, DecidableEq

namespace Arity

/-- Whether the operation takes `count` parameters. -/
def accepts : Arity → Nat → Bool
  | .any, _ => true
  | .fixed n, count => count == n
  | .range min none, count => min ≤ count
  | .range min (some max), count => min ≤ count && count ≤ max

/-- The arity in words. -/
def text : Arity → String
  | .any => "any number of"
  | .fixed n => s!"{n}"
  | .range min none => s!"at least {min}"
  | .range min (some max) => s!"{min} to {max}"

end Arity

/-- Why an operation has no result. -/
inductive OperationError where
  | notFound (name : String)
  | arity (operation : String) (expected : Arity) (actual : Nat)
  | invalidParameter (index : Nat) (kind : Kind)
  /-- The operation needs a parameter that is not there. The arity of a built-in operation rules
  this out. -/
  | missingParameter (index : Nat)
  | outOfBounds
  | divisionByZero
  | overflow
  | other (text : String)
  deriving Repr, DecidableEq

/-- The cause in words. -/
def OperationError.message : OperationError → String
  | .notFound name => s!"operation not found: {name}"
  | .arity operation expected actual =>
    s!"\"{operation}\" expects {expected.text} parameters, got {actual}"
  | .invalidParameter index kind => s!"parameter {index} has unsupported kind {kind.name}"
  | .missingParameter index => s!"parameter {index} is missing"
  | .outOfBounds => "OUT_OF_BOUNDS"
  | .divisionByZero => "DIVISION_BY_ZERO"
  | .overflow => "OVERFLOW"
  | .other text => text

/-- Refuses a number of parameters that the operation does not take. -/
def checkArity (operation : String) (arity : Arity) (count : Nat) : Except OperationError Unit :=
  if arity.accepts count then .ok () else .error (.arity operation arity count)

/-- A named function of evaluated parameters. -/
structure Operation where
  name : String
  arity : Arity
  run : List Value → Except OperationError Value

/-- Runs the operation on the parameters if it takes that many. -/
def Operation.call (op : Operation) (params : List Value) : Except OperationError Value :=
  (checkArity op.name op.arity params.length).bind fun _ => op.run params

end DataBinding
