import DataBinding.Scope.Nodes

/-!
# Setting contexts

* `Tree.set`: gives a context a value at a node. A context that is new there may come between
  observers below and the context that they found, or be what they waited for; these move to it.
* `Tree.setAt`: writes at a path inside a context that a node sees.
* `Tree.setImplicit`, `Tree.clearImplicit`: the same at the implicit scope of a node, which is made
  when it is first needed.

Setting a context tells its observers, whether or not the value differs from before.

In the interface: `set_context`, `set_context_at_path`, `set_implicit_context` and
`clear_implicit_context`.
-/

namespace DataBinding.Scope.Tree

/-- Gives the context a value at a node. The global context is one for all nodes. -/
def set (t : Tree) (id : NodeId) (context : String) (value : Value) : Outcome Unit :=
  if context = t.globalId then
    let t := { t with global := { t.global with value } }
    let target : Target := ⟨.global, context⟩
    { result := .ok (), tree := t, trace := t.notify target, ends := t.notifyEnds target }
  else
    match t.node? id with
    | none => t.noNode id
    | some n =>
      let target : Target := ⟨.node id, context⟩
      if n.contexts.contains context then
        let t := t.modifySlot target fun s => { s with value }
        { result := .ok (), tree := t, trace := t.notify target, ends := t.notifyEnds target }
      else
        let added :=
          t.modifyNode id fun n => { n with contexts := n.contexts.insert context ⟨value, []⟩ }
        let (t, _) := added.rebindWhere fun w => context ∈ w.contexts
        { result := .ok ()
          tree := t
          trace := t.notify target
          ends := (added.rebindWhereEnds fun w => context ∈ w.contexts) && t.notifyEnds target }

/-- Writes at a path inside the context that a node sees. A write that cannot reach its path leaves
the value as it is; the observers are told all the same. -/
def setAt (t : Tree) (id : NodeId) (context : String) (path : Path) (value : Value) :
    Outcome Unit :=
  match t.node? id with
  | none => t.noNode id
  | some _ =>
    match t.lookup id context with
    | .endless => t.stuck id context
    | .missing =>
      { result := .error (.contextNotFound id context)
        tree := t
        trace := ⟨[], [.contextNotVisible id context]⟩ }
    | .found owner =>
      let target : Target := ⟨owner, context⟩
      let reached := ((t.slot? target).bind fun s => s.value.write? path value).isSome
      let t := t.modifySlot target fun s => { s with value := s.value.set path value }
      { result := .ok ()
        tree := t
        trace := ⟨[], if reached then [] else [.writeIgnored path]⟩ ++ t.notify target
        ends := t.notifyEnds target }

/-- The implicit scope of a node, if it is there. -/
def implicit? (t : Tree) (n : Node) : Option NodeId :=
  n.implicit.filter t.contains

/-- Gives the context a value at the implicit scope of a node. -/
def setImplicit (t : Tree) (id : NodeId) (context : String) (value : Value) : Outcome Unit :=
  match t.node? id with
  | none => t.noNode id
  | some n =>
    match t.implicit? n with
    | some scope => t.set scope context value
    | none =>
      let (scope, nodes) := t.nodes.alloc { parent := n.parent }
      let t := { t with nodes }
      (t.modifyNode id fun n => { n with implicit := some scope }).set scope context value

/-- Removes the implicit scope of a node. -/
def clearImplicit (t : Tree) (id : NodeId) : Outcome Unit :=
  match t.node? id with
  | none => t.noNode id
  | some n =>
    let scope := t.implicit? n
    let t := t.modifyNode id fun n => { n with implicit := none }
    match scope with
    | some scope => t.remove scope
    | none => { result := .ok (), tree := t }

end DataBinding.Scope.Tree
