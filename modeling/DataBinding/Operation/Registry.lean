import DataBinding.Event
import DataBinding.Operation.Builtin

/-!
# Registries of operations

A registry holds operations by name. Registering a name again replaces its operation; a text that
cannot be a name is refused. Both leave an event.

* `Registry.register`: adds an operation.
* `Registry.call`: runs an operation by name.

In the interface: `register` and `register_definition`, `call`, and `with_builtins` for the registry
of the built-in operations.
-/

namespace DataBinding

/-- Why an operation is not registered. -/
inductive RegisterError where
  | invalidName (name : String)
  deriving Repr, DecidableEq

/-- The cause in words. -/
def RegisterError.message : RegisterError → String
  | .invalidName name => s!"invalid operation name: {Text.quote name}"

/-- Operations by name. -/
structure Registry where
  operations : Entries Operation := .empty

namespace Registry

/-- The registry without operations. -/
def empty : Registry := {}

/-- The registry of the built-in operations. -/
def builtin : Registry :=
  ⟨.ofList (builtinOperations.map fun op => (op.name, op))⟩

/-- The operation of a name. -/
def get? (r : Registry) (name : String) : Option Operation :=
  r.operations.get? name

/-- Whether a name has an operation. -/
def contains (r : Registry) (name : String) : Bool :=
  r.operations.contains name

/-- The names, sorted by code points. -/
def names (r : Registry) : List String :=
  r.operations.keys.mergeSort

/-- Runs the operation of a name on the parameters. -/
def call (r : Registry) (name : String) (params : List Value) : Except OperationError Value :=
  match r.get? name with
  | some op => op.call params
  | none => .error (.notFound name)

/-- What registering an operation gives: whether it was accepted, the registry after it, and the
events that it left. -/
structure Registration where
  result : Except RegisterError Unit
  registry : Registry
  events : List Event

/-- Adds an operation under its name, in the place of the one that had it. -/
def register (r : Registry) (op : Operation) : Registration :=
  if isOperationName op.name then
    { result := .ok ()
      registry := ⟨r.operations.insert op.name op⟩
      events := if r.contains op.name then [.operationReplaced op.name] else [] }
  else
    { result := .error (.invalidName op.name), registry := r, events := [.nameRejected op.name] }

end Registry

end DataBinding
