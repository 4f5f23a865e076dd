import DataBinding.Operation.Registry

/-!
# Evaluation

An expression is evaluated against the contexts visible where it stands and a registry of
operations. Evaluation always has a value: a reference to a missing context, an unknown operation
and an operation without a result become `null` and leave an event.

* `Expr.eval`: the value of an expression, the contexts that were looked up for it, in order, and
  the events that it left.

In the interface: `evaluate`, with `evaluate_single`, `evaluate_binding` and `evaluate_operation`
for its parts. Out of scope: the conversion of the value to the type that a caller asks for.
-/

namespace DataBinding

/-- What evaluation gives: a value, the contexts looked up and the events left, each in order. -/
structure Evaluated (α : Type) where
  value : α
  reads : List String := []
  events : List Event := []

namespace Evaluated

/-- Goes on with the value, looking up and reporting after what was before. -/
def bind {α β : Type} (x : Evaluated α) (f : α → Evaluated β) : Evaluated β :=
  let y := f x.value
  ⟨y.value, x.reads ++ y.reads, x.events ++ y.events⟩

instance : Monad Evaluated where
  pure a := ⟨a, [], []⟩
  bind := bind

end Evaluated

/-- What expressions are evaluated against. -/
structure Env where
  contexts : String → Option Value
  registry : Registry

/-- The value that a reference leads to. -/
def Binding.eval (env : Env) (b : Binding) : Evaluated Value :=
  match env.contexts b.context with
  | some v => ⟨v.valueAt b.path, [b.context], []⟩
  | none => ⟨.null, [b.context], [.contextNotFound b.context]⟩

/-- The result of an operation. -/
def Registry.eval (r : Registry) (name : String) (params : List Value) : Evaluated Value :=
  match r.call name params with
  | .ok v => ⟨v, [], []⟩
  | .error (.notFound name) => ⟨.null, [], [.operationNotFound name]⟩
  | .error e => ⟨.null, [], [.operationFailed name e]⟩

mutual

/-- The value of an argument. A call comes after its own arguments. -/
def Arg.eval (env : Env) : Arg → Evaluated Value
  | .literal v => pure v
  | .binding b => b.eval env
  | .call name args => do
    let params ← Arg.evalAll env args
    env.registry.eval name params

/-- The values of arguments, from left to right. -/
def Arg.evalAll (env : Env) : List Arg → Evaluated (List Value)
  | [] => pure []
  | a :: as => do
    let v ← a.eval env
    let vs ← Arg.evalAll env as
    pure (v :: vs)

end

/-- The value of an interpolation. -/
def Interpolation.eval (env : Env) (i : Interpolation) : Evaluated Value :=
  i.toArg.eval env

/-- The text that a piece adds to its template. -/
def Piece.eval (env : Env) : Piece → Evaluated String
  | .text s => pure s
  | .interpolation i => do
    let v ← i.eval env
    pure v.text

/-- The texts that pieces add, one behind the other. -/
def Piece.evalAll (env : Env) : List Piece → Evaluated String
  | [] => pure ""
  | p :: ps => do
    let s ← p.eval env
    let t ← Piece.evalAll env ps
    pure (s ++ t)

/-- The value of an expression. -/
def Expr.eval (env : Env) : Expr → Evaluated Value
  | .literal v => pure v
  | .single i => i.eval env
  | .template [] => ⟨.null, [], [.emptyTemplate]⟩
  | .template pieces => do
    let s ← Piece.evalAll env pieces
    pure (.string s)

end DataBinding
