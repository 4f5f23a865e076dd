import DataBinding.Scope.Contexts

/-!
# Observing

* `Tree.observe`: watches every context that an expression refers to, as seen from a node, and
  tells the value of the expression now and after every change.
* `Tree.observeContext`: watches one context and tells its value after every change.
* `Tree.unsubscribe`: removes an observer.
* `Tree.registerOperation`: adds an operation to the registry of the tree.

In the interface: `observe`, `observe_context` and `unsubscribe`.
-/

namespace DataBinding.Scope

/-- The elements in the order in which they first occur, each once. -/
def distinct : List String → List String
  | [] => []
  | c :: cs => c :: (distinct cs).filter (· != c)

/-- The contexts that an expression refers to, each once. -/
def contextsOf (e : Expr) : List String :=
  distinct (e.bindings.map (·.context))

namespace Tree

/-- Observes an expression from a node. The observer is told its value at once, before it is
registered; contexts that are not visible yet leave an event. -/
def observe (t : Tree) (id : NodeId) (e : Expr) : Outcome ObserverId :=
  match t.node? id with
  | none => t.noNode id
  | some _ =>
    let contexts := contextsOf e
    let missing := contexts.filter fun c => (t.owner? id c).isNone
    let r := t.eval id e
    { result := .ok t.nextObserver
      tree := t.register id contexts (.expression e)
      trace := ⟨[⟨t.nextObserver, r.value⟩], missing.map (.bindingWaits id ·) ++ r.events⟩
      ends := t.settles id contexts && t.settles id r.reads }

/-- Observes a context that a node sees. -/
def observeContext (t : Tree) (id : NodeId) (context : String) : Outcome ObserverId :=
  match t.node? id with
  | none => t.noNode id
  | some _ =>
    match t.lookup id context with
    | .endless => t.stuck id context
    | .missing => { result := .error (.contextNotFound id context), tree := t }
    | .found _ => { result := .ok t.nextObserver, tree := t.register id [context] .context }

/-- Removes an observer, if it is there. -/
def unsubscribe (t : Tree) (id : ObserverId) : Tree :=
  match t.watch? id with
  | none => t
  | some w =>
    let t := { t with watches := t.watches.filter (·.id != id) }
    w.targets.foldl (fun t target => t.detach id target) t

/-- Adds an operation for the expressions of the tree. -/
def registerOperation (t : Tree) (op : Operation) : Except RegisterError Unit × Tree × List Event :=
  let r := t.registry.register op
  (r.result, { t with registry := r.registry }, r.events)

end Tree

end DataBinding.Scope
