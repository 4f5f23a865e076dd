import DataBinding.Operation.Parameters

/-!
# Operations on arrays

Each gives a new array, but for `contains`. A position is compared with the length before it is
used.
-/

namespace DataBinding.Arrays

/-- The array with a value put in at a position, at its end if none is given. -/
def insert (params : List Value) : Guarded Value := do
  let items ← Params.read Value.array? params 0
  let value ← Params.param params 1
  match params[2]? with
  | some _ =>
    let i ← Params.index params 2
    if items.length < i then Guarded.fail .outOfBounds
    else .array <$> insertAt items i value
  | none => return .array (items ++ [value])

/-- The array without the elements equal to a value. -/
def remove (params : List Value) : Guarded Value := do
  let items ← Params.read Value.array? params 0
  let value ← Params.param params 1
  .ok (.array (items.filter fun item => !(item == value)))

/-- The position of the last element. -/
def lastIndex (items : List Value) : Guarded Nat := do
  match ← positions.checked .sub items.length 1 with
  | some i => return i
  | none => Guarded.fail .outOfBounds

/-- The array without the element at a position, without its last if none is given. -/
def removeIndex (params : List Value) : Guarded Value := do
  let items ← Params.read Value.array? params 0
  let i ← Params.indexD params 1 (lastIndex items)
  if items.length ≤ i then Guarded.fail .outOfBounds
  else .array <$> removeAt items i

/-- Whether some element of the array equals a value. -/
def contains (params : List Value) : Guarded Value := do
  let items ← Params.read Value.array? params 0
  let value ← Params.param params 1
  .ok (.bool (items.any fun item => item == value))

/-- The arrays, one behind the other. -/
def union (params : List Value) : Guarded Value :=
  (Params.readAll Value.array? 0 params).map fun arrays => .array arrays.flatten

/-- The operations on arrays. -/
def operations : List Builtin :=
  [⟨"insert", .range 2 (some 3), insert⟩, ⟨"remove", .fixed 2, remove⟩,
   ⟨"removeIndex", .range 1 (some 2), removeIndex⟩, ⟨"contains", .fixed 2, contains⟩,
   ⟨"union", .range 1 none, union⟩]

end DataBinding.Arrays
