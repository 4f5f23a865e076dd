import DataBinding.Scope.Delivery

/-!
# Adding and removing nodes

A node goes away together with everything below it: its children and its implicit scope, and what
is below these. The observers that look from one of them go too. Those that found a context there
look again and are told what they see now.

* `Tree.addRoot`, `Tree.addChild`: a new node.
* `Tree.remove`: a node and all below it go away.

In the interface: `create_root`, `create_child` and `remove_node`.
-/

namespace DataBinding.Scope

/-- Takes the nodes and all below them out of the arena, the first one of the list first; what is
below a node comes next, its implicit scope first and then its children, the last one first. Gives
the identities taken out, in order. -/
def dismantle (nodes : Arena Node) : List NodeId → Arena Node × List NodeId
  | [] => (nodes, [])
  | id :: rest =>
    match _h : nodes.release? id with
    | none => dismantle nodes rest
    | some (n, nodes') =>
      let (nodes'', removed) := dismantle nodes' (n.implicit.toList ++ n.children.reverse ++ rest)
      (nodes'', id :: removed)
termination_by ids => (nodes.occupied, ids.length)
decreasing_by
  · simp [Prod.lex_def]
  · have := Arena.occupied_release? _h
    simp [Prod.lex_def]; omega

namespace Tree

/-- Adds a node without a parent. -/
def addRoot (t : Tree) : NodeId × Tree :=
  let (id, nodes) := t.nodes.alloc { parent := none }
  (id, { t with nodes })

/-- Adds a child to a node. -/
def addChild (t : Tree) (parent : NodeId) : Outcome NodeId :=
  match t.node? parent with
  | none => t.noNode parent
  | some _ =>
    let (id, nodes) := t.nodes.alloc { parent := some parent }
    let t := { t with nodes }
    { result := .ok id
      tree := t.modifyNode parent fun n => { n with children := n.children ++ [id] } }

/-- Takes a node out of the children of its parent. -/
def unlink (t : Tree) (id : NodeId) : Tree :=
  match t.parent? id with
  | none => t
  | some p => t.modifyNode p fun n => { n with children := n.children.filter (· != id) }

/-- Drops the observers that look from the removed nodes, here and in the lists of all contexts. -/
def dropWatches (t : Tree) (removed : List NodeId) : Tree :=
  let watches := t.watches.filter (·.subscriber ∉ removed)
  let prune (s : Slot) : Slot :=
    { s with observers := s.observers.filter fun id => watches.any (·.id == id) }
  { t with
    watches
    global := prune t.global
    nodes := t.nodes.map fun n => { n with contexts := n.contexts.mapValues prune } }

/-- Whether an observer found a context at one of the nodes. -/
def targetsAny (removed : List NodeId) (w : Watch) : Bool :=
  w.targets.any fun target =>
    match target.owner with
    | .global => false
    | .node id => id ∈ removed

/-- Removes a node and all below it. -/
def remove (t : Tree) (id : NodeId) : Outcome Unit :=
  match t.node? id with
  | none => t.noNode id
  | some _ =>
    let t := t.unlink id
    let (nodes, removed) := dismantle t.nodes [id]
    let t := { t with nodes }
    let left := t.dropWatches removed
    let (t, moved) := left.rebindWhere (targetsAny removed)
    { result := .ok ()
      tree := t
      trace := ⟨[], [.nodeRemoved id removed.length moved.length]⟩ ++ .concat (moved.map t.fire)
      ends := left.rebindWhereEnds (targetsAny removed) && moved.all t.fireEnds }

end Tree

end DataBinding.Scope
