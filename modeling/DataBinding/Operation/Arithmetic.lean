import DataBinding.Operation.Parameters

/-!
# Arithmetic operations

All four combine their parameters from left to right. `subtract` starts from twice the first
parameter and `divide` from its square, and then both go over every parameter, the first included,
which thereby cancels out: `subtract(a, b)` is `2a - a - b`. So the start can overflow where the
result would not, and `divide(0, x)` divides by zero.
-/

namespace DataBinding.Arithmetic

/-- Combines `operands` from left to right, beginning with `n`; `failure` is reported where there is
no result. -/
def combine (op : Number → Number → Guarded (Option Number)) (failure : OperationError)
    (n : Number) : List Number → Guarded Value
  | [] => .ok n.toValue
  | m :: operands => do
    match ← op n m with
    | some r => combine op failure r operands
    | none => Guarded.fail failure

/-- Combines `operands` from left to right, beginning with `start`, if that has a result. -/
def fold (op : Number → Number → Guarded (Option Number)) (failure : OperationError)
    (start : Guarded (Option Number)) (operands : List Number) : Guarded Value := do
  match ← start with
  | some n => combine op failure n operands
  | none => Guarded.fail .overflow

/-- Reads the parameters as numbers and hands over the first and the others. -/
def reduce (go : Number → List Number → Guarded Value) (params : List Value) : Guarded Value :=
  (Params.readAll Value.number? 0 params).bind fun
    | [] => Guarded.fail (.arity "arithmetic" (.range 1 none) 0)
    | n :: rest => go n rest

/-- The sum of the parameters. -/
def sum : List Value → Guarded Value :=
  reduce fun n rest => fold Number.checkedAdd .overflow (.ok (some n)) rest

/-- The first parameter less all others. -/
def subtract : List Value → Guarded Value :=
  reduce fun n rest => fold Number.checkedSub .overflow (n.checkedMul (.int 2)) (n :: rest)

/-- The product of the parameters. -/
def multiply : List Value → Guarded Value :=
  reduce fun n rest => fold Number.checkedMul .overflow (.ok (some n)) rest

/-- The first parameter divided by all others in turn. -/
def divide : List Value → Guarded Value :=
  reduce fun n rest => fold Number.checkedDiv .divisionByZero (n.checkedMul n) (n :: rest)

/-- The arithmetic operations. -/
def operations : List Builtin :=
  [⟨"sum", .range 1 none, sum⟩,
   ⟨"subtract", .range 1 none, subtract⟩,
   ⟨"multiply", .range 1 none, multiply⟩,
   ⟨"divide", .range 1 none, divide⟩]

end DataBinding.Arithmetic
