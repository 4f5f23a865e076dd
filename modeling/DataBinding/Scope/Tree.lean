import DataBinding.Expr.Eval
import DataBinding.Scope.Arena

/-!
# Trees of scopes

Each node of a tree may hold contexts: named values, seen from the node itself and from all nodes
below it. A lookup begins at a node and goes from each node to its implicit scope, if it has one,
and else to its parent; the implicit scope has the node's parent as its own, so the lookup gets
there in the end. The nearest node that holds the context owns it. One context, the global one, is
seen from everywhere.

An implicit scope that was removed by its identity is still named by its node. A lookup ends there.
Once a cell was vacated so often that its generations begin again, the name may lead to another
node, and the lookup may go round for ever.

An observer watches contexts from a node. Its targets are the contexts that it currently finds;
each of these lists the observers that it must tell of a change.

* `Tree.lookup`: how a lookup goes out.
* `Tree.owner?`, `Tree.value?`: where a context is, and its value.
* `Tree.eval`: the value of an expression as seen from a node.

In the interface: `resolve_owner`, `get_context_value` and `evaluate`; `contains`, `parent` and
`children`; `subscription_targets` and `observer_count`.

Out of scope: what observers do when they are told. They cannot change the tree meanwhile. Their
numbers have no limit here, and the number of cells is limited where it matters.
-/

namespace DataBinding

namespace Scope

/-- Observers are numbered in the order in which they were registered. -/
abbrev ObserverId := Nat

/-- The value of a context and the observers to tell when it is set, by number. -/
structure Slot where
  value : Value
  observers : List ObserverId := []

/-- A node: its place in the tree and the contexts it holds. -/
structure Node where
  parent : Option NodeId
  /-- A scope consulted before the parent. -/
  implicit : Option NodeId := none
  children : List NodeId := []
  contexts : Entries Slot := .empty

/-- Where a lookup goes from a node that does not hold the context. -/
def Node.next (n : Node) : Option NodeId :=
  n.implicit.or n.parent

/-- Where a context is. -/
inductive Owner where
  | global
  | node (id : NodeId)
  deriving Repr, DecidableEq

/-- How a lookup goes out. -/
inductive Lookup where
  | found (owner : Owner)
  /-- It ends, and there is no such context. -/
  | missing
  /-- It never ends. -/
  | endless
  deriving Repr, DecidableEq

/-- Where the context is that was found. -/
def Lookup.owner? : Lookup → Option Owner
  | .found owner => some owner
  | .missing | .endless => none

/-- Whether the lookup ends. -/
def Lookup.ends : Lookup → Bool
  | .found _ | .missing => true
  | .endless => false

/-- A context that an observer finds. -/
structure Target where
  owner : Owner
  context : String
  deriving Repr, DecidableEq

/-- What an observer is told: the value of an expression, or that of its one context. -/
inductive Subject where
  | expression (e : Expr)
  | context

/-- An observer. -/
structure Watch where
  id : ObserverId
  /-- The node from which it looks, and with which it goes away. -/
  subscriber : NodeId
  /-- The contexts that it watches, found or not. -/
  contexts : List String
  /-- Those that it found. -/
  targets : List Target
  subject : Subject

/-- A tree of scopes. -/
structure Tree where
  /-- The name of the global context. -/
  globalId : String
  global : Slot
  registry : Registry
  nodes : Arena Node := {}
  /-- The observers, by number. -/
  watches : List Watch := []
  /-- The number of observers ever registered. -/
  registered : Nat := 0

namespace Tree

/-- A tree without nodes. -/
def new (globalId : String) (value : Value) (registry : Registry) : Tree :=
  { globalId, global := ⟨value, []⟩, registry }

/-- The node of an identity, if it is there. -/
def node? (t : Tree) (id : NodeId) : Option Node :=
  t.nodes.get? id

/-- Whether the node is there. -/
def contains (t : Tree) (id : NodeId) : Bool :=
  (t.node? id).isSome

/-- The parent of a node. -/
def parent? (t : Tree) (id : NodeId) : Option NodeId :=
  (t.node? id).bind (·.parent)

/-- The children of a node, in the order in which they were added. -/
def children (t : Tree) (id : NodeId) : List NodeId :=
  ((t.node? id).map (·.children)).getD []

/-! ## Lookup -/

/-- Whether the node holds the context. -/
def holds (t : Tree) (context : String) (id : NodeId) : Bool :=
  match t.node? id with
  | some n => n.contexts.contains context
  | none => false

/-- Follows the links from a node to one that holds the context. What is still going on after
`turns` turns counts as endless. -/
def follow (t : Tree) (context : String) : Nat → NodeId → Lookup
  | 0, _ => .endless
  | turns + 1, id =>
    match t.node? id with
    | none => .missing
    | some n =>
      if n.contexts.contains context then .found (.node id)
      else
        match n.next with
        | none => .missing
        | some up => t.follow context turns up

/-- How the lookup for a context goes out that begins at a node. With one turn more than there are
cells it has come to a node for the second time, unless it has ended: what counts as endless then is
(`Tree.lookup_eq_endless_iff`). -/
def lookup (t : Tree) (id : NodeId) (context : String) : Lookup :=
  if context = t.globalId then .found .global
  else t.follow context (t.nodes.cells.length + 1) id

/-- Where the context is that a node sees under a name. -/
def owner? (t : Tree) (id : NodeId) (context : String) : Option Owner :=
  (t.lookup id context).owner?

/-- Whether the lookups for the contexts end. -/
def settles (t : Tree) (id : NodeId) (contexts : List String) : Bool :=
  contexts.all fun c => (t.lookup id c).ends

/-- The slot of a context. -/
def slot? (t : Tree) (target : Target) : Option Slot :=
  match target.owner with
  | .global => some t.global
  | .node id => (t.node? id).bind (·.contexts.get? target.context)

/-- The value that a node sees under a name. -/
def value? (t : Tree) (id : NodeId) (context : String) : Option Value :=
  ((t.owner? id context).bind fun owner => t.slot? ⟨owner, context⟩).map (·.value)

/-- The number of observers that a context tells. -/
def observerCount (t : Tree) (target : Target) : Nat :=
  ((t.slot? target).map (·.observers.length)).getD 0

/-- The value of an expression as seen from a node. -/
def eval (t : Tree) (id : NodeId) (e : Expr) : Evaluated Value :=
  e.eval ⟨t.value? id, t.registry⟩

/-! ## Observers -/

/-- The observer of a number, if it is there. -/
def watch? (t : Tree) (id : ObserverId) : Option Watch :=
  t.watches.find? (·.id == id)

/-- The contexts that an observer finds; none if it is gone. -/
def targets (t : Tree) (id : ObserverId) : List Target :=
  ((t.watch? id).map (·.targets)).getD []

/-- The contexts among the named ones that a node sees. -/
def resolve (t : Tree) (id : NodeId) (contexts : List String) : List Target :=
  contexts.filterMap fun c => (t.owner? id c).map (⟨·, c⟩)

/-! ## Changing slots -/

/-- Changes a node. -/
def modifyNode (t : Tree) (id : NodeId) (f : Node → Node) : Tree :=
  { t with nodes := t.nodes.modify id f }

/-- Changes the slot of a context. -/
def modifySlot (t : Tree) (target : Target) (f : Slot → Slot) : Tree :=
  match target.owner with
  | .global => { t with global := f t.global }
  | .node id => t.modifyNode id fun n => { n with contexts := n.contexts.modify target.context f }

end Tree

end Scope

end DataBinding
