import DataBinding.Proofs.Scope.Rebind
import DataBinding.Proofs.Scope.Dismantle

/-!
# Calls

A call asks a tree for one thing. What it does to the tree is at most two changes, each of one kind
(`Change`); only setting a context at an implicit scope that is not there yet takes two.

* `Tree.set_cases`, `Tree.setImplicit_cases` and the like: what a call can do.
* `Tree.changes_call`: a call makes at most two changes.
* `Tree.grows_call`: no call takes cells away.
* `Tree.call_induction`: what every change preserves, every call preserves.
-/

namespace DataBinding.Scope

variable {t : Tree}

/-! ## Trees within a call -/

namespace Tree

/-- The tree with one more node, which no other names yet. -/
def addNode (t : Tree) (parent : Option NodeId) : Tree :=
  { t with nodes := (t.nodes.alloc { parent }).2 }

/-- The tree with one more node, which is the last child of its parent. -/
def addLeaf (t : Tree) (parent : NodeId) : Tree :=
  (t.addNode (some parent)).modifyNode parent fun n =>
    { n with children := n.children ++ [t.nodes.nextId] }

/-- The tree with one more node, which is the implicit scope of another. -/
def addScope (t : Tree) (m : NodeId) (parent : Option NodeId) : Tree :=
  (t.addNode parent).modifyNode m fun n => { n with implicit := some t.nodes.nextId }

/-- The tree with another value in a context. -/
def write (t : Tree) (target : Target) (f : Value → Value) : Tree :=
  t.modifySlot target fun s => { s with value := f s.value }

/-- The tree with a context that is new at a node. -/
def addContext (t : Tree) (x : NodeId) (c : String) (value : Value) : Tree :=
  t.modifyNode x fun n => { n with contexts := n.contexts.insert c ⟨value, []⟩ }

/-- The nodes that go away with a node. -/
def removed (t : Tree) (x : NodeId) : List NodeId :=
  (dismantle (t.unlink x).nodes [x]).2

/-- The tree without a node and all below it, with all of its observers. -/
def cut (t : Tree) (x : NodeId) : Tree :=
  { t.unlink x with nodes := (dismantle (t.unlink x).nodes [x]).1 }

/-- The tree without a node and all below it, and without the observers that look from there. -/
def without (t : Tree) (x : NodeId) : Tree :=
  (t.cut x).dropWatches (t.removed x)

/-! ## What a call can do -/

theorem addChild_cases (t : Tree) (p : NodeId) :
    t.addChild p = t.noNode p ∨
      t.contains p = true ∧
        t.addChild p = { result := .ok t.nodes.nextId, tree := t.addLeaf p } := by
  unfold addChild contains
  cases t.node? p with
  | none => exact Or.inl rfl
  | some n =>
    refine Or.inr ⟨rfl, ?_⟩
    simp only [addLeaf, addNode, ← Arena.alloc_fst t.nodes { parent := some p }]

/-- Unlinking a node strikes it off the children of its parent. -/
theorem unlink_cases (t : Tree) (x : NodeId) :
    (t.parent? x = none ∧ t.unlink x = t) ∨
      ∃ p, t.parent? x = some p ∧
        t.unlink x = t.modifyNode p fun n => { n with children := n.children.filter (· != x) } := by
  unfold unlink
  cases t.parent? x with
  | none => exact Or.inl ⟨rfl, rfl⟩
  | some p => exact Or.inr ⟨p, rfl, rfl⟩

theorem remove_of_contains {x : NodeId} (hx : t.contains x = true) :
    t.remove x =
      { result := .ok ()
        tree := ((t.without x).rebindWhere (targetsAny (t.removed x))).1
        trace := ⟨[], [.nodeRemoved x (t.removed x).length
            ((t.without x).rebindWhere (targetsAny (t.removed x))).2.length]⟩ ++
          .concat (((t.without x).rebindWhere (targetsAny (t.removed x))).2.map
            ((t.without x).rebindWhere (targetsAny (t.removed x))).1.fire)
        ends := (t.without x).rebindWhereEnds (targetsAny (t.removed x)) &&
          ((t.without x).rebindWhere (targetsAny (t.removed x))).2.all
            ((t.without x).rebindWhere (targetsAny (t.removed x))).1.fireEnds } := by
  unfold remove
  obtain ⟨n, hn⟩ := Option.isSome_iff_exists.mp hx
  rw [hn]
  rfl

theorem remove_cases (t : Tree) (x : NodeId) :
    t.remove x = t.noNode x ∨ t.contains x = true ∧ (t.remove x).result = .ok () ∧
      (t.remove x).tree = ((t.without x).rebindWhere (targetsAny (t.removed x))).1 := by
  by_cases hx : t.contains x = true
  · exact Or.inr ⟨hx, by rw [remove_of_contains hx], by rw [remove_of_contains hx]⟩
  · refine Or.inl ?_
    unfold remove
    rw [Option.not_isSome_iff_eq_none.mp hx]

/-- Setting a context is refused, writes a context that is there, or adds one. -/
theorem set_cases (t : Tree) (x : NodeId) (c : String) (value : Value) :
    t.set x c value = t.noNode x ∨
      (∃ T : Target, T.context = c ∧ T.Proper t.globalId ∧ (t.slot? T).isSome = true ∧
        (T.owner = if c = t.globalId then .global else .node x) ∧
        t.set x c value =
          { result := .ok (), tree := t.write T fun _ => value
            trace := (t.write T fun _ => value).notify T
            ends := (t.write T fun _ => value).notifyEnds T }) ∨
      (c ≠ t.globalId ∧ t.contains x = true ∧ t.slot? ⟨.node x, c⟩ = none ∧
        t.set x c value =
          { result := .ok ()
            tree := ((t.addContext x c value).rebindWhere fun w => c ∈ w.contexts).1
            trace := ((t.addContext x c value).rebindWhere fun w => c ∈ w.contexts).1.notify
              ⟨.node x, c⟩
            ends := ((t.addContext x c value).rebindWhereEnds fun w => c ∈ w.contexts) &&
              ((t.addContext x c value).rebindWhere fun w => c ∈ w.contexts).1.notifyEnds
                ⟨.node x, c⟩ }) := by
  unfold set
  by_cases hc : c = t.globalId
  · rw [if_pos hc]
    exact Or.inr (Or.inl ⟨⟨.global, c⟩, rfl, fun _ => hc, rfl, (if_pos hc).symm, rfl⟩)
  · rw [if_neg hc]
    cases hn : t.node? x with
    | none => exact Or.inl rfl
    | some n =>
      have hslot : t.slot? ⟨.node x, c⟩ = n.contexts.get? c := by
        simp only [slot?, hn, Option.bind_some]
      by_cases hh : n.contexts.contains c = true
      · simp only [hh, if_true]
        exact Or.inr (Or.inl ⟨⟨.node x, c⟩, rfl, Target.proper_node, by rw [hslot]; exact hh,
          (if_neg hc).symm, rfl⟩)
      · simp only [hh]
        exact Or.inr (Or.inr ⟨hc, by rw [contains, hn]; rfl,
          by rw [hslot]; exact Entries.get?_eq_none_of_not_contains hh, rfl⟩)

/-- Writing inside a context is refused or writes the context that the node sees. -/
theorem setAt_cases (t : Tree) (x : NodeId) (c : String) (path : Path) (value : Value) :
    ((∃ e, (t.setAt x c path value).result = .error e) ∧ (t.setAt x c path value).tree = t ∧
        (t.setAt x c path value).trace.deliveries = []) ∨
      ∃ owner, t.owner? x c = some owner ∧ (t.setAt x c path value).result = .ok () ∧
        (t.setAt x c path value).tree = t.write ⟨owner, c⟩ (·.set path value) ∧
        (t.setAt x c path value).trace.deliveries =
          ((t.write ⟨owner, c⟩ (·.set path value)).notify ⟨owner, c⟩).deliveries := by
  unfold setAt owner?
  cases t.node? x with
  | none => exact Or.inl ⟨⟨_, rfl⟩, rfl, rfl⟩
  | some n =>
    cases t.lookup x c with
    | found owner => exact Or.inr ⟨owner, rfl, rfl, rfl, List.nil_append _⟩
    | missing => exact Or.inl ⟨⟨_, rfl⟩, rfl, rfl⟩
    | endless => exact Or.inl ⟨⟨_, rfl⟩, rfl, rfl⟩

/-- Setting a context at the implicit scope of a node is refused, sets it there, or makes the scope
first. -/
theorem setImplicit_cases (t : Tree) (m : NodeId) (c : String) (value : Value) :
    t.setImplicit m c value = t.noNode m ∨
      (∃ i, scopeOf t.nodes m = some i ∧ t.contains i = true ∧
        t.setImplicit m c value = t.set i c value) ∨
      (t.contains m = true ∧ (∀ i, scopeOf t.nodes m = some i → ¬ t.contains i = true) ∧
        t.setImplicit m c value =
          (t.addScope m (parentOf t.nodes m)).set t.nodes.nextId c value) := by
  unfold setImplicit
  cases hn : t.node? m with
  | none => exact Or.inl rfl
  | some n =>
    rw [scopeOf_of_get? hn, parentOf_of_get? hn]
    dsimp only
    cases hi : t.implicit? n with
    | some i =>
      obtain ⟨hs, hlive⟩ := Option.filter_eq_some_iff.mp hi
      exact Or.inr (Or.inl ⟨i, hs, hlive, rfl⟩)
    | none =>
      refine Or.inr (Or.inr ⟨by rw [contains, hn]; rfl, ?_, ?_⟩)
      · exact fun i hs => Option.filter_eq_none_iff.mp hi i hs
      · simp only [addScope, addNode, ← Arena.alloc_fst t.nodes { parent := n.parent }]

/-- Removing the implicit scope of a node is refused, lets go of a scope that is there and removes
it, or lets go of one that is gone. -/
theorem clearImplicit_cases (t : Tree) (m : NodeId) :
    t.clearImplicit m = t.noNode m ∨
      (∃ i, scopeOf t.nodes m = some i ∧ t.contains i = true ∧
        t.clearImplicit m = (t.dropScope m).remove i) ∨
      (t.contains m = true ∧ (∀ i, scopeOf t.nodes m = some i → ¬ t.contains i = true) ∧
        t.clearImplicit m = { result := .ok (), tree := t.dropScope m }) := by
  unfold clearImplicit
  cases hn : t.node? m with
  | none => exact Or.inl rfl
  | some n =>
    rw [scopeOf_of_get? hn]
    dsimp only
    cases hi : t.implicit? n with
    | some i =>
      obtain ⟨hs, hlive⟩ := Option.filter_eq_some_iff.mp hi
      exact Or.inr (Or.inl ⟨i, hs, hlive, rfl⟩)
    | none =>
      exact Or.inr (Or.inr ⟨by rw [contains, hn]; rfl,
        fun i hs => Option.filter_eq_none_iff.mp hi i hs, rfl⟩)

theorem observe_cases (t : Tree) (x : NodeId) (e : Expr) :
    t.observe x e = t.noNode x ∨
      t.contains x = true ∧ (t.observe x e).result = .ok t.nextObserver ∧
        (t.observe x e).tree = t.register x (contextsOf e) (.expression e) ∧
        (t.observe x e).trace.deliveries = [⟨t.nextObserver, (t.eval x e).value⟩] := by
  unfold observe contains
  cases t.node? x with
  | none => exact Or.inl rfl
  | some n => exact Or.inr ⟨rfl, rfl, rfl, rfl⟩

theorem observeContext_cases (t : Tree) (x : NodeId) (c : String) :
    (∃ e ends, t.observeContext x c = { result := .error e, tree := t, ends }) ∨
      t.contains x = true ∧ (t.owner? x c).isSome = true ∧
        t.observeContext x c =
          { result := .ok t.nextObserver, tree := t.register x [c] .context } := by
  unfold observeContext contains owner?
  cases t.node? x with
  | none => exact Or.inl ⟨_, _, rfl⟩
  | some n =>
    cases t.lookup x c with
    | found owner => exact Or.inr ⟨rfl, rfl, rfl⟩
    | missing => exact Or.inl ⟨_, _, rfl⟩
    | endless => exact Or.inl ⟨_, _, rfl⟩

end Tree

/-! ## The contexts of an expression -/

theorem mem_distinct {cs : List String} {c : String} : c ∈ distinct cs ↔ c ∈ cs := by
  induction cs with
  | nil => exact Iff.rfl
  | cons d cs ih =>
    rw [distinct, List.mem_cons, List.mem_filter, ih, List.mem_cons, bne_iff_ne]
    by_cases hd : c = d
    · simp [hd]
    · simp [hd]

theorem nodup_distinct (cs : List String) : (distinct cs).Nodup := by
  induction cs with
  | nil => exact List.nodup_nil
  | cons c cs ih =>
    rw [distinct, List.nodup_cons, List.mem_filter]
    exact ⟨fun h => by simp at h, ih.filter _⟩

theorem nodup_contextsOf (e : Expr) : (contextsOf e).Nodup :=
  nodup_distinct _

/-! ## Calls -/

/-- A call on a tree. -/
inductive Call where
  | addRoot
  | addChild (parent : NodeId)
  | remove (node : NodeId)
  | set (node : NodeId) (context : String) (value : Value)
  | setAt (node : NodeId) (context : String) (path : Path) (value : Value)
  | setImplicit (node : NodeId) (context : String) (value : Value)
  | clearImplicit (node : NodeId)
  | observe (node : NodeId) (e : Expr)
  | observeContext (node : NodeId) (context : String)
  | unsubscribe (observer : ObserverId)

/-- What a call that was not refused gives back. -/
inductive Answer where
  | done
  | node (id : NodeId)
  | observer (id : ObserverId)
  deriving Repr, DecidableEq

/-- The outcome with another result. -/
def Outcome.map {α β : Type} (f : α → β) (o : Outcome α) : Outcome β :=
  { o with result := o.result.map f }

/-- What a call does. -/
def Tree.call (t : Tree) : Call → Outcome Answer
  | .addRoot => { result := .ok (.node t.addRoot.1), tree := t.addRoot.2 }
  | .addChild p => (t.addChild p).map .node
  | .remove x => (t.remove x).map fun _ => .done
  | .set x c value => (t.set x c value).map fun _ => .done
  | .setAt x c path value => (t.setAt x c path value).map fun _ => .done
  | .setImplicit m c value => (t.setImplicit m c value).map fun _ => .done
  | .clearImplicit m => (t.clearImplicit m).map fun _ => .done
  | .observe x e => (t.observe x e).map .observer
  | .observeContext x c => (t.observeContext x c).map .observer
  | .unsubscribe id => { result := .ok .done, tree := t.unsubscribe id }

/-- The call does not ask for an implicit scope to be removed by its identity. -/
def SparesScopes (t : Tree) (c : Call) : Prop :=
  ∀ x, c = .remove x → ∀ m, scopeOf t.nodes m = some x → ¬ t.contains x = true

/-! ## Changes -/

/-- What a call does to a tree. A node is removed by its identity only if it is no implicit scope,
when these are to be spared. -/
inductive Change (spared : Prop) (t : Tree) : Tree → Prop where
  | addRoot : Change spared t (t.addNode none)
  | addLeaf {p : NodeId} : t.nodes.contains p = true → Change spared t (t.addLeaf p)
  | addScope {m : NodeId} : t.nodes.contains m = true →
      (∀ i, scopeOf t.nodes m = some i → ¬ t.nodes.contains i = true) →
      Change spared t (t.addScope m (parentOf t.nodes m))
  | write {T : Target} (f : Value → Value) : T.Proper t.globalId → (t.slot? T).isSome = true →
      Change spared t (t.write T f)
  | addContext {x : NodeId} {c : String} (value : Value) : c ≠ t.globalId →
      t.nodes.contains x = true → t.slot? ⟨.node x, c⟩ = none →
      Change spared t ((t.addContext x c value).rebindWhere fun w => c ∈ w.contexts).1
  | remove {x : NodeId} : t.nodes.contains x = true →
      (spared → ∀ m, scopeOf t.nodes m ≠ some x) → Change spared t (t.remove x).tree
  | clearScope {m i : NodeId} : scopeOf t.nodes m = some i → t.nodes.contains i = true →
      Change spared t ((t.dropScope m).remove i).tree
  | dropScope {m : NodeId} : (∀ i, scopeOf t.nodes m = some i → ¬ t.nodes.contains i = true) →
      Change spared t (t.dropScope m)
  | register (x : NodeId) {cs : List String} (subject : Subject) : t.nodes.contains x = true →
      cs.Nodup → Change spared t (t.register x cs subject)
  | unsubscribe (id : ObserverId) : Change spared t (t.unsubscribe id)

theorem change_set {spared : Prop} (t : Tree) (x : NodeId) (c : String) (value : Value) :
    (t.set x c value).tree = t ∨ Change spared t (t.set x c value).tree := by
  obtain h | ⟨T, -, hT, hlive, -, h⟩ | ⟨hc, hx, hgone, h⟩ := t.set_cases x c value <;> rw [h]
  · exact Or.inl rfl
  · exact Or.inr (.write (fun _ => value) hT hlive)
  · exact Or.inr (.addContext value hc hx hgone)

/-- **A call makes at most two changes.** -/
theorem Tree.changes_call (t : Tree) (c : Call) :
    (t.call c).tree = t ∨ Change (SparesScopes t c) t (t.call c).tree ∨
      ∃ s, Change (SparesScopes t c) t s ∧
        ((t.call c).tree = s ∨ Change (SparesScopes t c) s (t.call c).tree) := by
  cases c with
  | addRoot => exact Or.inr (Or.inl .addRoot)
  | addChild p =>
    obtain h | ⟨hp, h⟩ := t.addChild_cases p <;> simp only [call, h, Outcome.map]
    · exact Or.inl rfl
    · exact Or.inr (Or.inl (.addLeaf hp))
  | remove x =>
    obtain h | ⟨hx, -⟩ := t.remove_cases x
    · simp only [call, h, Outcome.map]
      exact Or.inl rfl
    · exact Or.inr (Or.inl (.remove hx fun hs m hm => hs x rfl m hm hx))
  | set x c value => exact (change_set t x c value).imp_right Or.inl
  | setAt x c path value =>
    obtain ⟨-, h, -⟩ | ⟨owner, ho, -, h, -⟩ := t.setAt_cases x c path value <;>
      simp only [call, h, Outcome.map]
    · exact Or.inl trivial
    · exact Or.inr (Or.inl (.write _ (proper_of_owner? ho) (slot?_of_owner? ho)))
  | setImplicit m c value =>
    obtain h | ⟨i, -, -, h⟩ | ⟨hm, hold, h⟩ := t.setImplicit_cases m c value <;>
      simp only [call, h, Outcome.map]
    · exact Or.inl rfl
    · exact (change_set t i c value).imp_right Or.inl
    · exact Or.inr (Or.inr ⟨_, .addScope hm hold, change_set ..⟩)
  | clearImplicit m =>
    obtain h | ⟨i, hi, hlive, h⟩ | ⟨-, hold, h⟩ := t.clearImplicit_cases m <;>
      simp only [call, h, Outcome.map]
    · exact Or.inl rfl
    · exact Or.inr (Or.inl (.clearScope hi hlive))
    · exact Or.inr (Or.inl (.dropScope hold))
  | observe x e =>
    obtain h | ⟨hx, -, h, -⟩ := t.observe_cases x e <;> simp only [call, h, Outcome.map]
    · exact Or.inl rfl
    · exact Or.inr (Or.inl (.register x _ hx (nodup_contextsOf e)))
  | observeContext x c =>
    obtain ⟨e, ends, h⟩ | ⟨hx, -, h⟩ := t.observeContext_cases x c <;>
      simp only [call, h, Outcome.map]
    · exact Or.inl trivial
    · exact Or.inr (Or.inl (.register x _ hx (List.nodup_singleton c)))
  | unsubscribe id => exact Or.inr (Or.inl (.unsubscribe id))

/-! ## What no change touches -/

@[simp] theorem Tree.globalId_unlink (t : Tree) (x : NodeId) :
    (t.unlink x).globalId = t.globalId := by
  obtain ⟨-, h⟩ | ⟨p, -, h⟩ := t.unlink_cases x <;> rw [h]
  rfl

@[simp] theorem Tree.globalId_remove (t : Tree) (x : NodeId) :
    (t.remove x).tree.globalId = t.globalId := by
  obtain h | ⟨-, -, h⟩ := t.remove_cases x <;> rw [h]
  · rfl
  · exact (alike_rebindWhere _ _).globalId.trans (t.globalId_unlink x)

theorem Tree.global_unlink (t : Tree) (x : NodeId) : (t.unlink x).global = t.global := by
  obtain ⟨-, h⟩ | ⟨p, -, h⟩ := t.unlink_cases x <;> rw [h]
  rfl

theorem Change.globalId {spared : Prop} {u : Tree} (h : Change spared t u) :
    u.globalId = t.globalId := by
  cases h with
  | write => exact Tree.globalId_modifySlot ..
  | addContext => exact (alike_rebindWhere (t.addContext ..) _).globalId
  | remove => exact Tree.globalId_remove ..
  | @clearScope m i => exact Tree.globalId_remove (t.dropScope m) i
  | register => exact (alike_register ..).globalId
  | unsubscribe => exact (alike_unsubscribe ..).globalId
  | _ => rfl

@[simp] theorem Tree.registry_unlink (t : Tree) (x : NodeId) :
    (t.unlink x).registry = t.registry := by
  obtain ⟨-, h⟩ | ⟨p, -, h⟩ := t.unlink_cases x <;> rw [h]
  rfl

@[simp] theorem Tree.registry_remove (t : Tree) (x : NodeId) :
    (t.remove x).tree.registry = t.registry := by
  obtain h | ⟨-, -, h⟩ := t.remove_cases x <;> rw [h]
  · rfl
  · exact (alike_rebindWhere _ _).registry.trans (t.registry_unlink x)

theorem Change.registry {spared : Prop} {u : Tree} (h : Change spared t u) :
    u.registry = t.registry := by
  cases h with
  | @write T f =>
    unfold Tree.write Tree.modifySlot
    split <;> rfl
  | addContext => exact (alike_rebindWhere (t.addContext ..) _).registry
  | remove => exact Tree.registry_remove ..
  | @clearScope m i => exact Tree.registry_remove (t.dropScope m) i
  | register => exact (alike_register ..).registry
  | unsubscribe => exact (alike_unsubscribe ..).registry
  | _ => rfl

@[simp] theorem Tree.globalId_set (t : Tree) (x : NodeId) (c : String) (value : Value) :
    (t.set x c value).tree.globalId = t.globalId := by
  obtain h | h := @change_set True t x c value
  · rw [h]
  · exact h.globalId

/-! ## Cells -/

theorem grows_modifySlot (t : Tree) (target : Target) (f : Slot → Slot) :
    t.nodes.Grows (t.modifySlot target f).nodes := by
  unfold Tree.modifySlot
  split
  · exact .refl _
  · exact Arena.grows_modify ..

theorem grows_addNode (t : Tree) (parent : Option NodeId) :
    t.nodes.Grows (t.addNode parent).nodes :=
  Arena.grows_alloc ..

theorem grows_addLeaf (t : Tree) (p : NodeId) :
    (t.addNode (some p)).nodes.Grows (t.addLeaf p).nodes :=
  Arena.grows_modify ..

theorem grows_addScope (t : Tree) (m : NodeId) (parent : Option NodeId) :
    (t.addNode parent).nodes.Grows (t.addScope m parent).nodes :=
  Arena.grows_modify ..

theorem grows_unlink (t : Tree) (x : NodeId) : t.nodes.Grows (t.unlink x).nodes := by
  obtain ⟨-, h⟩ | ⟨p, -, h⟩ := t.unlink_cases x <;> rw [h]
  · exact .refl _
  · exact Arena.grows_modify ..

theorem grows_cut (t : Tree) (x : NodeId) : t.nodes.Grows (t.cut x).nodes :=
  (grows_unlink t x).trans (releases_dismantle (t.unlink x).nodes [x]).grows

/-- Once the nodes are gone, removal is about observers only. -/
theorem alike_remove {x : NodeId} (hx : t.contains x = true) :
    Alike (t.cut x) (t.remove x).tree := by
  rw [Tree.remove_of_contains hx]
  exact (alike_dropWatches ..).trans (alike_rebindWhere ..)

theorem global_remove {x : NodeId} (hx : t.contains x = true) :
    (t.remove x).tree.global.value = t.global.value :=
  (alike_remove hx).global.trans (congrArg Slot.value (t.global_unlink x))

theorem grows_remove (t : Tree) (x : NodeId) : t.nodes.Grows (t.remove x).tree.nodes := by
  obtain h | ⟨hx, -⟩ := t.remove_cases x
  · rw [h]
    exact .refl _
  · exact (grows_cut t x).trans (alike_remove hx).grows

theorem Change.grows {spared : Prop} {u : Tree} (h : Change spared t u) :
    t.nodes.Grows u.nodes := by
  cases h with
  | addRoot => exact grows_addNode ..
  | addLeaf => exact (grows_addNode ..).trans (grows_addLeaf ..)
  | addScope => exact (grows_addNode ..).trans (grows_addScope ..)
  | write => exact grows_modifySlot ..
  | addContext => exact (Arena.grows_modify ..).trans (alike_rebindWhere (t.addContext ..) _).grows
  | remove => exact grows_remove ..
  | @clearScope m i => exact (Arena.grows_modify ..).trans (grows_remove (t.dropScope m) i)
  | dropScope => exact Arena.grows_modify ..
  | register => exact (alike_register ..).grows
  | unsubscribe => exact (alike_unsubscribe ..).grows

theorem grows_set (t : Tree) (x : NodeId) (c : String) (value : Value) :
    t.nodes.Grows (t.set x c value).tree.nodes := by
  obtain h | h := @change_set True t x c value
  · rw [h]
    exact .refl _
  · exact h.grows

/-- **No call takes cells away.** -/
theorem Tree.grows_call (t : Tree) (c : Call) : t.nodes.Grows (t.call c).tree.nodes := by
  obtain h | h | ⟨s, hs, h | h⟩ := t.changes_call c
  · rw [h]
    exact .refl _
  · exact h.grows
  · rw [h]
    exact hs.grows
  · exact hs.grows.trans h.grows

/-- **What every change preserves, every call preserves**, as long as the cells can be told
apart. -/
theorem Tree.call_induction {P : Tree → Prop} {c : Call} (h : P t)
    (hlt : (t.call c).tree.nodes.cells.length < UInt32.size)
    (hchange : ∀ {s u}, Change (SparesScopes t c) s u → u.nodes.cells.length < UInt32.size →
      P s → P u) : P (t.call c).tree := by
  obtain he | hc | ⟨s, hs, he | hc⟩ := t.changes_call c
  · rwa [he]
  · exact hchange hc hlt h
  · rw [he] at hlt ⊢
    exact hchange hs hlt h
  · exact hchange hc hlt (hchange hs (hc.grows.cells_lt hlt) h)

/-- The operations stay as they were at the start. -/
theorem Tree.registry_call (t : Tree) (c : Call) : (t.call c).tree.registry = t.registry := by
  obtain h | h | ⟨s, hs, h | h⟩ := t.changes_call c
  · rw [h]
  · exact h.registry
  · rw [h]
    exact hs.registry
  · exact h.registry.trans hs.registry

end DataBinding.Scope
