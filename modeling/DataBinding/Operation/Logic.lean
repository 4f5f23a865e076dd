import DataBinding.Operation.Parameters

/-!
# Logical operations
-/

namespace DataBinding.Logic

/-- Whether every parameter is true. -/
def and (params : List Value) : Guarded Value :=
  (Params.readAll Value.bool? 0 params).map fun bs => .bool (bs.all id)

/-- Whether some parameter is true. -/
def or (params : List Value) : Guarded Value :=
  (Params.readAll Value.bool? 0 params).map fun bs => .bool (bs.any id)

/-- The opposite of a truth value. -/
def not (params : List Value) : Guarded Value :=
  (Params.read Value.bool? params 0).map fun b => .bool (!b)

/-- The second parameter if the first is true, else the third. -/
def condition (params : List Value) : Guarded Value :=
  (Params.read Value.bool? params 0).bind fun b => Params.param params (if b then 1 else 2)

/-- The logical operations. -/
def operations : List Builtin :=
  [⟨"and", .range 1 none, and⟩, ⟨"or", .range 1 none, or⟩, ⟨"not", .fixed 1, not⟩,
   ⟨"condition", .fixed 3, condition⟩]

end DataBinding.Logic
