import DataBinding.Proofs.Entries
import DataBinding.Proofs.Scope.Lookup
import DataBinding.Scope.Observe

/-!
# Trees that differ in their observers only

Binding observers to contexts, registering them and dropping them changes the observers and the
lists of the contexts that name them, and nothing else. What a node sees, and what an expression
evaluates to, does not depend on either.

* `Tree.unwatched`: a tree with its observers taken away; `Alike`: two trees that are the same then.
* `Alike.owner?`, `Alike.value?`, `Alike.eval`, `Alike.resolve`: what does not depend on observers.
* `alike_attach`, `alike_detach`, `alike_rebind`, `alike_register`, `alike_dropWatches`,
  `alike_unsubscribe`: what changes observers only.
-/

namespace DataBinding.Scope

/-- The slot without observers. -/
def Slot.unwatched (s : Slot) : Slot :=
  { s with observers := [] }

/-- The node with no observers in its contexts. -/
def Node.unwatched (n : Node) : Node :=
  { n with contexts := n.contexts.mapValues Slot.unwatched }

/-- The tree with its observers taken away. -/
def Tree.unwatched (t : Tree) : Tree :=
  { t with
    watches := []
    registered := 0
    global := t.global.unwatched
    nodes := t.nodes.map Node.unwatched }

/-- The trees differ in their observers only. -/
def Alike (t u : Tree) : Prop :=
  u.unwatched = t.unwatched

variable {t u v : Tree}

theorem Alike.refl (t : Tree) : Alike t t :=
  rfl

theorem Alike.trans (h : Alike t u) (h' : Alike u v) : Alike t v :=
  Eq.trans h' h

theorem Alike.symm (h : Alike t u) : Alike u t :=
  Eq.symm h

/-! ## What does not depend on observers -/

namespace Tree

theorem node?_unwatched (t : Tree) (x : NodeId) :
    t.unwatched.node? x = (t.node? x).map Node.unwatched :=
  Arena.get?_map _ _ _

theorem holds_unwatched (t : Tree) (c : String) (x : NodeId) :
    t.unwatched.holds c x = t.holds c x := by
  rw [holds_eq, holds_eq, node?_unwatched, Option.map_map]
  congr 2
  funext n
  exact Entries.contains_mapValues ..

theorem lookup_unwatched (t : Tree) (x : NodeId) (c : String) :
    t.unwatched.lookup x c = t.lookup x c := by
  have hf : ∀ n : Node, n.unwatched.parent = n.parent ∧ n.unwatched.implicit = n.implicit ∧
      n.unwatched.children = n.children := fun _ => ⟨rfl, rfl, rfl⟩
  exact lookup_of_sameLinks (u := t.unwatched) (sameLinks_map t.nodes hf) rfl
    (holds_unwatched t c) x

theorem owner?_unwatched (t : Tree) (x : NodeId) (c : String) :
    t.unwatched.owner? x c = t.owner? x c := by
  rw [owner?, owner?, lookup_unwatched]

/-- Slots after a change of all slots. -/
theorem slot?_mapSlots (t : Tree) (watches : List Watch) (registered : Nat) (f : Slot → Slot)
    (target : Target) :
    Tree.slot? { t with
      watches, registered
      global := f t.global
      nodes := t.nodes.map fun n => { n with contexts := n.contexts.mapValues f } } target =
        (t.slot? target).map f := by
  obtain ⟨owner, c⟩ := target
  cases owner with
  | global => rfl
  | node x =>
    simp only [slot?, node?_eq, Arena.get?_map]
    cases t.nodes.get? x with
    | none => rfl
    | some n => exact Entries.get?_mapValues _ _ _

theorem slot?_unwatched (t : Tree) (target : Target) :
    t.unwatched.slot? target = (t.slot? target).map Slot.unwatched :=
  slot?_mapSlots t [] 0 Slot.unwatched target

theorem value?_unwatched (t : Tree) (x : NodeId) (c : String) :
    t.unwatched.value? x c = t.value? x c := by
  rw [value?, value?, owner?_unwatched]
  cases t.owner? x c with
  | none => rfl
  | some owner =>
    rw [Option.bind_some, Option.bind_some, slot?_unwatched, Option.map_map]
    rfl

theorem eval_unwatched (t : Tree) (x : NodeId) (e : Expr) :
    t.unwatched.eval x e = t.eval x e := by
  rw [eval, eval, funext (value?_unwatched t x)]
  rfl

end Tree

namespace Alike

theorem unwatched_eq (h : Alike t u) : u.unwatched = t.unwatched :=
  h

theorem globalId (h : Alike t u) : u.globalId = t.globalId :=
  (congrArg Tree.globalId h.unwatched_eq : u.unwatched.globalId = t.unwatched.globalId)

theorem registry (h : Alike t u) : u.registry = t.registry :=
  (congrArg Tree.registry h.unwatched_eq : u.unwatched.registry = t.unwatched.registry)

theorem global (h : Alike t u) : u.global.value = t.global.value :=
  (congrArg (·.global.value) h.unwatched_eq :)

theorem lookup (h : Alike t u) (x : NodeId) (c : String) : u.lookup x c = t.lookup x c := by
  rw [← Tree.lookup_unwatched, h, Tree.lookup_unwatched]

theorem owner? (h : Alike t u) (x : NodeId) (c : String) : u.owner? x c = t.owner? x c :=
  congrArg Lookup.owner? (h.lookup x c)

theorem value? (h : Alike t u) (x : NodeId) (c : String) : u.value? x c = t.value? x c := by
  rw [← Tree.value?_unwatched, h, Tree.value?_unwatched]

theorem eval (h : Alike t u) (x : NodeId) (e : Expr) : u.eval x e = t.eval x e := by
  rw [← Tree.eval_unwatched, h, Tree.eval_unwatched]

theorem resolve (h : Alike t u) (x : NodeId) (cs : List String) :
    u.resolve x cs = t.resolve x cs := by
  unfold Tree.resolve
  simp only [h.owner?]

theorem slot?_value (h : Alike t u) (target : Target) :
    (u.slot? target).map (·.value) = (t.slot? target).map (·.value) := by
  have := congrArg (Option.map (·.value)) (congrArg (Tree.slot? · target) h.unwatched_eq)
  simp only [Tree.slot?_unwatched, Option.map_map] at this
  exact this

theorem slot?_isSome (h : Alike t u) (target : Target) :
    (u.slot? target).isSome = (t.slot? target).isSome := by
  have := congrArg Option.isSome (h.slot?_value target)
  simpa only [Option.isSome_map] using this

theorem map_nodes (h : Alike t u) : u.nodes.map Node.unwatched = t.nodes.map Node.unwatched :=
  congrArg Tree.nodes h.unwatched_eq

theorem sameLinks (h : Alike t u) : SameLinks t.nodes u.nodes := by
  have hf : ∀ n : Node, n.unwatched.parent = n.parent ∧ n.unwatched.implicit = n.implicit ∧
      n.unwatched.children = n.children := fun _ => ⟨rfl, rfl, rfl⟩
  have ht := sameLinks_map t.nodes hf
  have hu := sameLinks_map u.nodes hf
  rw [h.map_nodes] at hu
  exact ⟨fun x => (hu.contains x).symm.trans (ht.contains x),
    fun x => (hu.parent x).symm.trans (ht.parent x), fun x => (hu.scope x).symm.trans (ht.scope x),
    fun x => (hu.children x).symm.trans (ht.children x)⟩

theorem contains (h : Alike t u) (x : NodeId) : u.contains x = t.contains x :=
  h.sameLinks.contains x

theorem node? (h : Alike t u) (x : NodeId) :
    (u.node? x).map Node.unwatched = (t.node? x).map Node.unwatched := by
  rw [← Tree.node?_unwatched, h.unwatched_eq, Tree.node?_unwatched]

theorem free (h : Alike t u) : u.nodes.free = t.nodes.free :=
  (congrArg Arena.free h.map_nodes :)

theorem vacated (h : Alike t u) :
    u.nodes.cells.map Cell.vacated = t.nodes.cells.map Cell.vacated := by
  have := congrArg (fun a => a.cells.map Cell.vacated) h.map_nodes
  simp only [Arena.map, List.map_map] at this
  exact this

theorem sound (h : Alike t u) (hs : t.nodes.Sound) : u.nodes.Sound := by
  refine hs.congr h.free ?_
  have := congrArg (fun a => a.cells.map (·.content.isSome)) h.map_nodes
  simp only [Arena.map, List.map_map] at this
  simpa only [Function.comp_def, Option.isSome_map] using this

theorem grows (h : Alike t u) : t.nodes.Grows u.nodes :=
  Arena.grows_of_cells h.vacated

end Alike

/-! ## What changes observers only -/

theorem alike_modifySlot (t : Tree) (target : Target) {f : Slot → Slot}
    (hf : ∀ s, (f s).value = s.value) : Alike t (t.modifySlot target f) := by
  have hf' : ∀ s, (f s).unwatched = s.unwatched := fun s => by
    simp only [Slot.unwatched, hf]
  obtain ⟨owner, c⟩ := target
  cases owner with
  | global => simp only [Alike, Tree.modifySlot, Tree.unwatched, hf']
  | node x =>
    have hn : ∀ n : Node,
        Node.unwatched { n with contexts := n.contexts.modify c f } = n.unwatched :=
      fun n => by simp only [Node.unwatched, Entries.mapValues_modify hf']
    simp only [Alike, Tree.modifySlot, Tree.modifyNode, Tree.unwatched, Arena.map_modify hn]

theorem alike_attach (t : Tree) (id : ObserverId) (target : Target) :
    Alike t (t.attach id target) :=
  alike_modifySlot t target fun _ => rfl

theorem alike_detach (t : Tree) (id : ObserverId) (target : Target) :
    Alike t (t.detach id target) :=
  alike_modifySlot t target fun _ => rfl

theorem alike_setTargets (t : Tree) (id : ObserverId) (targets : List Target) :
    Alike t (t.setTargets id targets) :=
  rfl

theorem alike_foldl {α : Type} {f : Tree → α → Tree} (hf : ∀ t x, Alike t (f t x)) (xs : List α)
    (t : Tree) : Alike t (xs.foldl f t) := by
  induction xs generalizing t with
  | nil => exact .refl t
  | cons x xs ih => exact (hf t x).trans (ih (f t x))

theorem alike_move (t : Tree) (w : Watch) (targets : List Target) : Alike t (t.move w targets) :=
  (alike_setTargets t w.id targets).trans <|
    (alike_foldl (fun t target => alike_detach t w.id target) _ _).trans
      (alike_foldl (fun t target => alike_attach t w.id target) _ _)

theorem alike_rebind (t : Tree) (ids : List ObserverId) : Alike t (t.rebind ids).1 := by
  induction ids generalizing t with
  | nil => exact .refl t
  | cons id ids ih =>
    unfold Tree.rebind
    cases t.watch? id with
    | none => exact ih t
    | some w =>
      simp only
      split
      · exact ih t
      · exact (alike_move t w _).trans (ih _)

theorem alike_rebindWhere (t : Tree) (affected : Watch → Bool) :
    Alike t (t.rebindWhere affected).1 :=
  alike_rebind t _

theorem alike_register (t : Tree) (x : NodeId) (cs : List String) (subject : Subject) :
    Alike t (t.register x cs subject) :=
  (alike_foldl (fun u target => alike_attach u t.nextObserver target) (t.resolve x cs) t :)

theorem alike_unsubscribe (t : Tree) (id : ObserverId) : Alike t (t.unsubscribe id) := by
  unfold Tree.unsubscribe
  cases t.watch? id with
  | none => exact .refl t
  | some w =>
    exact alike_foldl (fun t target => alike_detach t id target) _
      { t with watches := t.watches.filter (·.id != id) }

theorem alike_dropWatches (t : Tree) (removed : List NodeId) :
    Alike t (t.dropWatches removed) := by
  have hn : ∀ p : ObserverId → Bool, ∀ n : Node,
      Node.unwatched { n with contexts := n.contexts.mapValues fun s =>
        { s with observers := s.observers.filter p } } = n.unwatched := fun p n => by
    have hs : ∀ s : Slot, Slot.unwatched { s with observers := s.observers.filter p } =
        s.unwatched := fun _ => rfl
    simp only [Node.unwatched, Entries.mapValues_mapValues hs]
  simp only [Alike, Tree.dropWatches, Tree.unwatched, Slot.unwatched]
  rw [Arena.map_map_of_comp (hn _)]

end DataBinding.Scope
