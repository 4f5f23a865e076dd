import DataBinding.Path
import DataBinding.Value

/-!
# Reading and writing a value at a path

Reading never fails: a missing field, an index out of range or a step into the wrong kind leads to
absence. Writing creates the objects it lacks, as long as it passes through fields that are absent
or `null`; it never lengthens an array, and a write that cannot reach its place changes nothing.

* `Value.get?`, `Value.valueAt`: what is at a path.
* `Value.focus?`: what is at a path, with the way to put another value in its place.
* `Value.write?`, `Value.set`: the value after a write.

In the interface: `get` and `value_at`, `get_mut`, `set`.
-/

namespace DataBinding

namespace Value

/-- What one step leads to. -/
def child? : Value → Step → Option Value
  | .object fields, .key name => fields.get? name
  | .array items, .index i => items[i.toNat]?
  | _, _ => none

/-- What the path leads to. -/
def get? (v : Value) : Path → Option Value
  | [] => some v
  | s :: p => (v.child? s).bind (·.get? p)

/-- What the path leads to, `null` if that is nothing. -/
def valueAt (v : Value) (p : Path) : Value :=
  (v.get? p).getD .null

/-- A place inside a value: what is there, and the whole with another value there. -/
structure Focus where
  value : Value
  replace : Value → Value

/-- The place that the path leads to, if something is there. -/
def focus? (v : Value) : Path → Option Focus
  | [] => some ⟨v, id⟩
  | s :: p =>
    match v, s with
    | .object fields, .key name =>
      match fields.get? name with
      | some c => (c.focus? p).map fun f => ⟨f.value, fun x => .object (fields.insert name (f.replace x))⟩
      | none => none
    | .array items, .index i =>
      match items[i.toNat]? with
      | some c => (c.focus? p).map fun f => ⟨f.value, fun x => .array (items.set i.toNat (f.replace x))⟩
      | none => none
    | _, _ => none

/-- The value with `x` at the path, if the path can be reached. A field that is absent counts as
`null`, and `null` as an object without fields. -/
def write? (v : Value) : Path → Value → Option Value
  | [], x => some x
  | .key name :: p, x =>
    match v with
    | .object fields =>
      (((fields.get? name).getD .null).write? p x).map fun c => .object (fields.insert name c)
    | .null => (Value.null.write? p x).map fun c => .object (Entries.empty.insert name c)
    | _ => none
  | .index i :: p, x =>
    match v with
    | .array items =>
      match items[i.toNat]? with
      | some c => (c.write? p x).map fun c' => .array (items.set i.toNat c')
      | none => none
    | _ => none

/-- The value with `x` at the path; unchanged if the path cannot be reached. -/
def set (v : Value) (p : Path) (x : Value) : Value :=
  (v.write? p x).getD v

end Value

end DataBinding
