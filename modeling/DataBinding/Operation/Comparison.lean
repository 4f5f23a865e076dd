import DataBinding.Operation.Parameters

/-!
# Comparison operations

The orderings compare two parameters that both count as numbers and are false otherwise. `eq`
compares two parameters as numbers if both count as such and have an order, else as values.
-/

namespace DataBinding.Comparison

/-- The order of two parameters that count as numbers. -/
def ordering? : List Value → Option Ordering
  | [a, b] =>
    match a.number?, b.number? with
    | some m, some n => m.compare? n
    | _, _ => none
  | _ => none

/-- Whether the parameters have an order that is accepted. -/
def ordered (accept : Ordering → Bool) (params : List Value) : Guarded Value :=
  .ok (.bool ((ordering? params).any accept))

/-- Whether the first of two parameters is greater. -/
def gt : List Value → Guarded Value := ordered (· == .gt)

/-- Whether the first of two parameters is greater, or they are equal. -/
def gte : List Value → Guarded Value := ordered (· != .lt)

/-- Whether the first of two parameters is less. -/
def lt : List Value → Guarded Value := ordered (· == .lt)

/-- Whether the first of two parameters is less, or they are equal. -/
def lte : List Value → Guarded Value := ordered (· != .gt)

/-- Whether two parameters are equal, as numbers if they have an order as such. -/
def eq (params : List Value) : Guarded Value :=
  match ordering? params with
  | some o => .ok (.bool (o == .eq))
  | none =>
    match params with
    | [a, b] => .ok (.bool (a == b))
    | _ => .ok (.bool false)

/-- The comparison operations. -/
def operations : List Builtin :=
  [⟨"gt", .any, gt⟩, ⟨"gte", .any, gte⟩, ⟨"lt", .any, lt⟩, ⟨"lte", .any, lte⟩, ⟨"eq", .any, eq⟩]

end DataBinding.Comparison
