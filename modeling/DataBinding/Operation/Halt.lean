import DataBinding.Operation

/-!
# How the functions of built-in operations end

Such a function takes its parameters by position, puts elements into arrays and takes them out by
position, and computes with integers of 64 bits. A position that is not there and a result that
there is no room for are no faults of the parameters but of the function, and the function breaks
off. A fault of the parameters it reports as an error.

* `Guarded`: a thing, an error, or the breach at which a function breaks off.
* `insertAt`, `removeAt`: arrays changed by position.
* `Builtin`: a built-in operation with its function.

Out of scope: running out of memory, which arrays and texts are taken to be small enough for. The
functions that are registered later end with a value or an error (`Operation.run`); nothing is said
about what they do meanwhile.
-/

namespace DataBinding

/-- What a function may not do. -/
inductive Breach where
  /-- The function takes the parameter at `i`, but there are only `count`. -/
  | parameter (i count : Nat)
  /-- It puts an element in at `i`, beyond the end of the array. -/
  | insertion (i length : Nat)
  /-- It takes the element at `i` out of an array that does not reach so far. -/
  | removal (i length : Nat)
  /-- It computes the integer `n`, which is beyond what the bits of its result hold. -/
  | overflow (n : Int)
  /-- It divides the integer `n` by zero. -/
  | zeroDivision (n : Int)
  deriving Repr, DecidableEq

/-- The breach in words. -/
def Breach.text : Breach → String
  | .parameter i count => s!"no parameter {i} among {count}"
  | .insertion i length => s!"insertion at {i} into {length} elements"
  | .removal i length => s!"removal at {i} from {length} elements"
  | .overflow n => s!"no room for {n}"
  | .zeroDivision n => s!"{n} divided by zero"

/-- Why a function ends without a thing. -/
inductive Halt where
  | error (e : OperationError)
  | breach (b : Breach)
  deriving Repr, DecidableEq

/-- What stands for the end of a function where only errors are told. A breach has errors of its
own, which no function of a built-in operation reports (`OperationError.isReported`). -/
def Halt.toError : Halt → OperationError
  | .error e => e
  | .breach (.parameter i _) => .missingParameter i
  | .breach b => .other b.text

/-- What a function gives. -/
abbrev Guarded (α : Type) := Except Halt α

namespace Guarded

variable {α : Type}

/-- Reports an error. -/
def fail (e : OperationError) : Guarded α :=
  .error (.error e)

/-- Breaks off. -/
def breach (b : Breach) : Guarded α :=
  .error (.breach b)

end Guarded

/-- The array with an element put in at a position. -/
def insertAt (items : List Value) (i : Nat) (v : Value) : Guarded (List Value) :=
  if i ≤ items.length then .ok (items.insertIdx i v)
  else Guarded.breach (.insertion i items.length)

/-- The array without the element at a position. -/
def removeAt (items : List Value) (i : Nat) : Guarded (List Value) :=
  if i < items.length then .ok (items.eraseIdx i) else Guarded.breach (.removal i items.length)

/-- A built-in operation. -/
structure Builtin where
  name : String
  arity : Arity
  run : List Value → Guarded Value

/-- The operation that is registered. -/
def Builtin.operation (b : Builtin) : Operation :=
  ⟨b.name, b.arity, fun params => (b.run params).mapError Halt.toError⟩

@[simp] theorem Builtin.name_operation (b : Builtin) : b.operation.name = b.name :=
  rfl

@[simp] theorem Builtin.arity_operation (b : Builtin) : b.operation.arity = b.arity :=
  rfl

end DataBinding
