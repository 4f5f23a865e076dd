import DataBinding.Scope.Tree

/-!
# Binding observers to contexts

The contexts that an observer finds change with the tree. The observer and the contexts it finds
name each other: its targets, their lists of observers, which stay in the order of registration.

* `Tree.attach`, `Tree.detach`: puts an observer into the list of a context, and takes it out.
* `Tree.rebind`: lets observers look again, and moves those that find something else;
  `Tree.rebindEnds`: whether all of this ends.
* `Tree.register`: adds an observer.
-/

namespace DataBinding.Scope

/-- The list with `id` before the first greater number. -/
def insertSorted (id : ObserverId) (ids : List ObserverId) : List ObserverId :=
  ids.takeWhile (· < id) ++ id :: ids.dropWhile (· < id)

namespace Tree

/-- Lets a context tell an observer. -/
def attach (t : Tree) (id : ObserverId) (target : Target) : Tree :=
  t.modifySlot target fun s => { s with observers := insertSorted id s.observers }

/-- Lets a context no longer tell an observer. -/
def detach (t : Tree) (id : ObserverId) (target : Target) : Tree :=
  t.modifySlot target fun s => { s with observers := s.observers.filter (· != id) }

/-- Writes down what an observer finds. -/
def setTargets (t : Tree) (id : ObserverId) (targets : List Target) : Tree :=
  { t with watches := t.watches.map fun w => if w.id = id then { w with targets } else w }

/-- Moves an observer from the contexts it found to those it finds. -/
def move (t : Tree) (w : Watch) (targets : List Target) : Tree :=
  let t := t.setTargets w.id targets
  let t := (w.targets.filter (· ∉ targets)).foldl (fun t target => t.detach w.id target) t
  (targets.filter (· ∉ w.targets)).foldl (fun t target => t.attach w.id target) t

/-- Lets the observers look again, in turn; gives those that moved. -/
def rebind (t : Tree) : List ObserverId → Tree × List ObserverId
  | [] => (t, [])
  | id :: ids =>
    match t.watch? id with
    | none => t.rebind ids
    | some w =>
      let targets := t.resolve w.subscriber w.contexts
      if targets = w.targets then t.rebind ids
      else
        let (t, moved) := (t.move w targets).rebind ids
        (t, id :: moved)

/-- Whether the lookups end when the observers look again. -/
def rebindEnds (t : Tree) : List ObserverId → Bool
  | [] => true
  | id :: ids =>
    match t.watch? id with
    | none => t.rebindEnds ids
    | some w =>
      let targets := t.resolve w.subscriber w.contexts
      t.settles w.subscriber w.contexts &&
        if targets = w.targets then t.rebindEnds ids else (t.move w targets).rebindEnds ids

/-- Lets the observers that are `affected` look again. -/
def rebindWhere (t : Tree) (affected : Watch → Bool) : Tree × List ObserverId :=
  t.rebind ((t.watches.filter affected).map (·.id))

/-- Whether the lookups end then. -/
def rebindWhereEnds (t : Tree) (affected : Watch → Bool) : Bool :=
  t.rebindEnds ((t.watches.filter affected).map (·.id))

/-- The number that the next observer gets. -/
def nextObserver (t : Tree) : ObserverId :=
  t.registered + 1

/-- Adds an observer of distinct contexts. -/
def register (t : Tree) (subscriber : NodeId) (contexts : List String) (subject : Subject) :
    Tree :=
  let id := t.nextObserver
  let targets := t.resolve subscriber contexts
  let t := targets.foldl (fun t target => t.attach id target) t
  { t with
    watches := t.watches ++ [{ id, subscriber, contexts, targets, subject }]
    registered := id }

end Tree

end DataBinding.Scope
