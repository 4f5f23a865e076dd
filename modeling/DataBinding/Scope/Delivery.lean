import DataBinding.Scope.Binding

/-!
# What calls on a tree give

A call has a result, leaves a tree, tells observers and leaves events. Observers are told within
the call, once the tree has settled.

* `Outcome`: all of this together, and whether the call returns.
* `Tree.notify`: tells the observers of a context.
* `Tree.fire`: tells one observer what it now sees.
-/

namespace DataBinding.Scope

/-- A value that an observer is told. -/
structure Delivery where
  observer : ObserverId
  value : Value

/-- What happens during a call, in order. -/
structure Trace where
  deliveries : List Delivery := []
  events : List Event := []

instance : Append Trace :=
  ⟨fun a b => ⟨a.deliveries ++ b.deliveries, a.events ++ b.events⟩⟩

/-- One trace behind the other. -/
def Trace.concat (traces : List Trace) : Trace :=
  ⟨traces.flatMap (·.deliveries), traces.flatMap (·.events)⟩

/-- Why a call was refused. -/
inductive ScopeError where
  | nodeNotFound (node : NodeId)
  | contextNotFound (node : NodeId) (context : String)
  deriving Repr, DecidableEq

/-- The cause in words. -/
def ScopeError.message : ScopeError → String
  | .nodeNotFound node => s!"node {node.text} does not exist or was removed"
  | .contextNotFound node context =>
    s!"context {Text.quote context} is not visible from node {node.text}"

/-- What a call gives: its result, the tree after it, and what happened meanwhile. -/
structure Outcome (α : Type) where
  result : Except ScopeError α
  tree : Tree
  trace : Trace := {}
  /-- Whether every lookup of the call ends. The call never returns if one does not, and then nobody
  is given the rest. -/
  ends : Bool := true

/-- What the caller is given, if the call returns. -/
def Outcome.returned? {α : Type} (o : Outcome α) : Option (Except ScopeError α) :=
  if o.ends then some o.result else none

namespace Tree

/-- Tells an observer. The observer of an expression evaluates it and is told its value, whatever
`value` is. -/
def tell (t : Tree) (w : Watch) (value : Value) : Trace :=
  match w.subject with
  | .expression e =>
    let r := t.eval w.subscriber e
    ⟨[⟨w.id, r.value⟩], r.events⟩
  | .context => ⟨[⟨w.id, value⟩], []⟩

/-- Whether the lookups end when the observer is told. -/
def tellEnds (t : Tree) (w : Watch) : Bool :=
  match w.subject with
  | .expression e => t.settles w.subscriber (t.eval w.subscriber e).reads
  | .context => true

/-- Tells an observer the value of its first context, `null` if it finds none. -/
def fire (t : Tree) (id : ObserverId) : Trace :=
  match t.watch? id with
  | none => {}
  | some w => t.tell w ((w.contexts.head?.bind (t.value? w.subscriber)).getD .null)

/-- Whether the lookups end then. -/
def fireEnds (t : Tree) (id : ObserverId) : Bool :=
  match t.watch? id with
  | none => true
  | some w => t.settles w.subscriber w.contexts.head?.toList && t.tellEnds w

/-- Tells the observers of a context its value, in order. -/
def notify (t : Tree) (target : Target) : Trace :=
  match t.slot? target with
  | none => {}
  | some s => .concat (s.observers.map fun id =>
      match t.watch? id with
      | none => {}
      | some w => t.tell w s.value)

/-- Whether the lookups end then. -/
def notifyEnds (t : Tree) (target : Target) : Bool :=
  match t.slot? target with
  | none => true
  | some s => s.observers.all fun id =>
      match t.watch? id with
      | none => true
      | some w => t.tellEnds w

/-- The outcome of a call refused for want of a node. -/
def noNode {α : Type} (t : Tree) (id : NodeId) : Outcome α :=
  { result := .error (.nodeNotFound id), tree := t }

/-- What stands for a call that never returns from its lookup for a context. -/
def stuck {α : Type} (t : Tree) (id : NodeId) (context : String) : Outcome α :=
  { result := .error (.contextNotFound id context), tree := t, ends := false }

end Tree

end DataBinding.Scope
