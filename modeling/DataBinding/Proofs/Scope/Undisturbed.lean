import DataBinding.Proofs.Scope.Fresh
import DataBinding.Proofs.Scope.Thinned

/-!
# Calls without the observers left out

A call that an observer left out has nothing to do with gives the same answer on a tree without
those left out, tells the others the same, and leaves trees that differ as before.

* `Agree`: two outcomes that differ in the observers left out only.
* `Thinned.set`, `Thinned.remove` and the like, `Thinned.call`: a call on two trees that do.
* `Thinned.subscription_gone`: a subscription that is left out of one side.
-/

namespace DataBinding.Scope

variable {gone : List ObserverId} {t u : Tree}

/-! ## Outcomes -/

/-- The second outcome is the first one without the observers `gone`. -/
structure Agree {α : Type} (gone : List ObserverId) (o p : Outcome α) : Prop where
  result : p.result = o.result
  tree : Thinned gone o.tree p.tree
  deliveries : p.trace.deliveries = o.trace.deliveries.filterMap (Delivery.kept? gone)

namespace Thinned

theorem noNode {α : Type} (h : Thinned gone t u) (x : NodeId) :
    Agree (α := α) gone (t.noNode x) (u.noNode x) :=
  ⟨rfl, h, rfl⟩

theorem dropScope (h : Thinned gone t u) (m : NodeId) :
    Thinned gone (t.dropScope m) (u.dropScope m) :=
  h.congr (h.alike.dropScope m) rfl rfl rfl rfl

theorem write (h : Thinned gone t u) (T : Target) (f : Value → Value) :
    Thinned gone (t.write T f) (u.write T f) :=
  h.congr (h.alike.write T f) (Tree.watches_modifySlot ..) (Tree.watches_modifySlot ..)
    (Tree.registered_modifySlot ..) (Tree.registered_modifySlot ..)

theorem notify_write (h : Thinned gone t u) (ht : Coherent t) (hu : Coherent u) {T : Target}
    (hT : T.Proper t.globalId) (f : Value → Value) :
    ((u.write T f).notify T).deliveries =
      ((t.write T f).notify T).deliveries.filterMap (Delivery.kept? gone) :=
  (h.write T f).notify (ht.write hT f).indexed (hu.write (h.alike.globalId ▸ hT) f).indexed
    (Tree.globalId_modifySlot t T _ ▸ hT)

theorem addChild (h : Thinned gone t u) (p : NodeId) :
    Agree gone (t.addChild p) (u.addChild p) := by
  have hnew : ∀ {t : Tree} {n : Node}, t.node? p = some n →
      t.addChild p = { result := .ok t.nodes.nextId, tree := t.addLeaf p } := by
    intro t n hn
    simp only [Tree.addChild, hn, Tree.addLeaf, Tree.addNode, Arena.alloc_fst]
  obtain ⟨hn, hm⟩ | ⟨n, m, hn, hm, -⟩ := h.alike.node?_cases p
  · simp only [Tree.addChild, hn, hm]
    exact h.noNode p
  · rw [hnew hn, hnew hm, h.alike.nextId]
    exact ⟨rfl, h.congr (h.alike.addLeaf p) rfl rfl rfl rfl, rfl⟩

theorem remove (h : Thinned gone t u) (ht : Coherent t) (hu : Coherent u) (x : NodeId) :
    Agree gone (t.remove x) (u.remove x) := by
  by_cases hx : t.contains x = true
  · have haffected : ∀ (w : Watch) id,
        Tree.targetsAny (t.removed x) { w with id } = Tree.targetsAny (t.removed x) w :=
      fun _ _ => rfl
    have hwithout := h.without x
    have hit := ht.indexed_without x
    have hiu := hu.indexed_without x
    rw [Tree.remove_of_contains hx, Tree.remove_of_contains ((h.alike.contains x).trans hx),
      h.alike.removed]
    refine ⟨rfl, hwithout.rebindWhere hit hiu haffected, ?_⟩
    have hfire := (hwithout.rebindWhere hit hiu haffected).fire
      ((t.without x).rebindWhere (Tree.targetsAny (t.removed x))).2
    rwa [← hwithout.moved hit hiu haffected] at hfire
  · have hn : ∀ {t : Tree}, ¬ t.contains x = true → t.remove x = t.noNode x := by
      intro t hx
      obtain hr | ⟨hc, -⟩ := t.remove_cases x
      · exact hr
      · exact absurd hc hx
    rw [hn hx, hn ((h.alike.contains x).symm ▸ hx)]
    exact h.noNode x

theorem set (h : Thinned gone t u) (ht : Coherent t) (hu : Coherent u) (x : NodeId) (c : String)
    (value : Value) : Agree gone (t.set x c value) (u.set x c value) := by
  have hid := h.alike.globalId
  unfold Tree.set
  by_cases hc : c = t.globalId
  · rw [if_pos hc, if_pos (hc.trans hid.symm)]
    have hT : Target.Proper t.globalId ⟨.global, c⟩ := fun _ => hc
    exact ⟨rfl, h.write ⟨.global, c⟩ fun _ => value, h.notify_write ht hu hT fun _ => value⟩
  · rw [if_neg hc, if_neg (hid.symm ▸ hc)]
    obtain ⟨hn, hm⟩ | ⟨n, m, hn, hm, he⟩ := h.alike.node?_cases x
    · rw [hn, hm]
      exact h.noNode x
    · have hcon : m.contexts.contains c = n.contexts.contains c := by
        have := congrArg (·.contexts.contains c) he
        simpa only [Node.unwatched, Entries.contains_mapValues] using this
      simp only [hn, hm, hcon]
      split
      · exact ⟨rfl, h.write ⟨.node x, c⟩ fun _ => value,
          h.notify_write ht hu Target.proper_node fun _ => value⟩
      · rename_i hnew
        have hgone : ∀ {t : Tree} {n : Node}, t.node? x = some n →
            ¬ n.contexts.contains c = true → t.slot? ⟨.node x, c⟩ = none := fun hn hnew => by
          simp only [Tree.slot?, hn, Option.bind_some]
          exact Entries.get?_eq_none_of_not_contains hnew
        have hadd : Thinned gone (t.addContext x c value) (u.addContext x c value) :=
          h.congr (h.alike.addContext x c value) rfl rfl rfl rfl
        have hit := (ht.addContext (hgone hn hnew) value).indexed
        have hiu := (hu.addContext (hgone hm (hcon ▸ hnew)) value).indexed
        have hmove : Thinned gone
            ((t.addContext x c value).rebindWhere fun w => c ∈ w.contexts).1
            ((u.addContext x c value).rebindWhere fun w => c ∈ w.contexts).1 :=
          hadd.rebindWhere hit hiu fun _ _ => rfl
        exact ⟨rfl, hmove, hmove.notify (hit.rebindWhere _) (hiu.rebindWhere _)
          Target.proper_node⟩

theorem setAt (h : Thinned gone t u) (ht : Coherent t) (hu : Coherent u) (x : NodeId) (c : String)
    (path : Path) (value : Value) :
    Agree gone (t.setAt x c path value) (u.setAt x c path value) := by
  unfold Tree.setAt
  obtain ⟨hn, hm⟩ | ⟨n, m, hn, hm, -⟩ := h.alike.node?_cases x
  · rw [hn, hm]
    exact h.noNode x
  · rw [hn, hm, h.alike.lookup]
    cases ho : t.lookup x c with
    | missing => exact ⟨rfl, h, rfl⟩
    | endless => exact ⟨rfl, h, rfl⟩
    | found owner =>
      have hT := Tree.proper_of_owner? (Tree.owner?_eq_some_iff.mpr ho)
      exact ⟨rfl, h.write ⟨owner, c⟩ (·.set path value),
        h.notify_write ht hu hT (·.set path value)⟩

theorem setImplicit (h : Thinned gone t u) (ht : Coherent t) (hu : Coherent u) (m : NodeId)
    (c : String) (value : Value)
    (hlt : (t.setImplicit m c value).tree.nodes.cells.length < UInt32.size) :
    Agree gone (t.setImplicit m c value) (u.setImplicit m c value) := by
  have hnew : ∀ {t : Tree} {n : Node}, t.node? m = some n → t.implicit? n = none →
      t.setImplicit m c value = (t.addScope m n.parent).set t.nodes.nextId c value := by
    intro t n hn hi
    simp only [Tree.setImplicit, hn, hi, Tree.addScope, Tree.addNode, Arena.alloc_fst]
  obtain ⟨hn, hk⟩ | ⟨n, k, hn, hk, he⟩ := h.alike.node?_cases m
  · simp only [Tree.setImplicit, hn, hk]
    exact h.noNode m
  · have hp : k.parent = n.parent :=
      (congrArg Node.parent he : k.unwatched.parent = n.unwatched.parent)
    have hik := h.alike.implicit? he
    cases hi : t.implicit? n with
    | some i =>
      simp only [Tree.setImplicit, hn, hk, hik, hi]
      exact h.set ht hu i c value
    | none =>
      rw [hnew hn hi] at hlt ⊢
      rw [hnew hk (hik.trans hi), hp, h.alike.nextId]
      have hlt' := (grows_set ..).cells_lt hlt
      have hscope := h.congr (h.alike.addScope m n.parent) rfl rfl rfl rfl
      exact hscope.set (ht.addScope m hlt')
        (hu.addScope m (hscope.alike.symm.grows.cells_lt hlt')) t.nodes.nextId c value

theorem clearImplicit (h : Thinned gone t u) (ht : Coherent t) (hu : Coherent u) (m : NodeId) :
    Agree gone (t.clearImplicit m) (u.clearImplicit m) := by
  unfold Tree.clearImplicit
  obtain ⟨hn, hm⟩ | ⟨n, k, hn, hm, he⟩ := h.alike.node?_cases m
  · rw [hn, hm]
    exact h.noNode m
  · simp only [hn, hm, h.alike.implicit? he]
    cases t.implicit? n with
    | none => exact ⟨rfl, h.dropScope m, rfl⟩
    | some i => exact (h.dropScope m).remove (ht.dropScope m) (hu.dropScope m) i

end Thinned

/-! ## Calls -/

/-- The answer with the new number of the observer. -/
def Answer.renumbered (gone : List ObserverId) : Answer → Answer
  | .observer id => .observer (Scope.renumbered gone id)
  | answer => answer

/-- The call with the new number of the observer. -/
def Call.renumbered (gone : List ObserverId) : Call → Call
  | .unsubscribe id => .unsubscribe (Scope.renumbered gone id)
  | c => c

/-- Two outcomes that name no observer. -/
theorem Agree.answer {α : Type} {o p : Outcome α} (h : Agree gone o p) {f : α → Answer}
    (hf : ∀ a, (f a).renumbered gone = f a) :
    Agree gone ((o.map f).map (Answer.renumbered gone)) (p.map f) where
  result := by
    simp only [Outcome.map, h.result]
    cases o.result with
    | error e => rfl
    | ok a => exact congrArg Except.ok (hf a).symm
  tree := h.tree
  deliveries := h.deliveries

namespace Thinned

theorem observe (h : Thinned gone t u) (x : NodeId) (e : Expr)
    (hmade : ∀ id, (t.observe x e).result = .ok id → id ∉ gone) :
    Agree gone (((t.observe x e).map .observer).map (Answer.renumbered gone))
      ((u.observe x e).map .observer) := by
  unfold Tree.observe at hmade ⊢
  obtain ⟨hn, hm⟩ | ⟨n, m, hn, hm, -⟩ := h.alike.node?_cases x
  · rw [hn, hm]
    exact ⟨rfl, h, rfl⟩
  · simp only [hn, hm] at hmade ⊢
    obtain ⟨hkept, htree⟩ := h.register (hmade _ rfl) x (contextsOf e) (.expression e)
    refine ⟨?_, htree, ?_⟩
    · rw [← (kept?_eq_some_iff.mp hkept).2]
      rfl
    · simp only [Outcome.map, h.alike.eval, List.filterMap_cons, Delivery.kept?, hkept,
        Option.map_some, List.filterMap_nil]

theorem observeContext (h : Thinned gone t u) (x : NodeId) (c : String)
    (hmade : ∀ id, (t.observeContext x c).result = .ok id → id ∉ gone) :
    Agree gone (((t.observeContext x c).map .observer).map (Answer.renumbered gone))
      ((u.observeContext x c).map .observer) := by
  unfold Tree.observeContext at hmade ⊢
  obtain ⟨hn, hm⟩ | ⟨n, m, hn, hm, -⟩ := h.alike.node?_cases x
  · rw [hn, hm]
    exact ⟨rfl, h, rfl⟩
  · simp only [hn, hm, h.alike.lookup] at hmade ⊢
    cases ho : t.lookup x c with
    | missing => exact ⟨rfl, h, rfl⟩
    | endless => exact ⟨rfl, h, rfl⟩
    | found owner =>
      simp only [ho] at hmade
      obtain ⟨hkept, htree⟩ := h.register (hmade _ rfl) x [c] .context
      refine ⟨?_, htree, rfl⟩
      rw [← (kept?_eq_some_iff.mp hkept).2]
      rfl

/-- **A call that no observer left out has to do with.** -/
theorem call (h : Thinned gone t u) (ht : Coherent t) (hu : Coherent u) (c : Call)
    (hlt : (t.call c).tree.nodes.cells.length < UInt32.size)
    (hmade : ∀ id, (t.call c).result = .ok (.observer id) → id ∉ gone)
    (hends : ∀ id, c = .unsubscribe id → id ∉ gone) :
    Agree gone ((t.call c).map (Answer.renumbered gone)) (u.call (c.renumbered gone)) := by
  have hdone : ∀ _ : Unit, Answer.renumbered gone .done = .done := fun _ => rfl
  cases c with
  | addRoot =>
    refine ⟨?_, h.congr (h.alike.addNode none) rfl rfl rfl rfl, rfl⟩
    simp only [Call.renumbered, Tree.call, Tree.addRoot, Arena.alloc_fst, h.alike.nextId]
    rfl
  | addChild p => exact (h.addChild p).answer fun _ => rfl
  | remove x => exact (h.remove ht hu x).answer hdone
  | set x c value => exact (h.set ht hu x c value).answer hdone
  | setAt x c path value => exact (h.setAt ht hu x c path value).answer hdone
  | setImplicit m c value => exact (h.setImplicit ht hu m c value hlt).answer hdone
  | clearImplicit m => exact (h.clearImplicit ht hu m).answer hdone
  | observe x e =>
    refine h.observe x e fun id hid => hmade id ?_
    rw [Tree.call, Outcome.map, hid]
    rfl
  | observeContext x c =>
    refine h.observeContext x c fun id hid => hmade id ?_
    rw [Tree.call, Outcome.map, hid]
    rfl
  | unsubscribe id =>
    have hkept : kept? gone id = some (renumbered gone id) :=
      kept?_eq_some_iff.mpr ⟨hends id rfl, rfl⟩
    exact ⟨rfl, h.unsubscribe hkept, rfl⟩

/-- A subscription that is left out. -/
theorem subscription_gone (h : Thinned gone t u) {c : Call} (hs : c.subscription.isSome = true)
    (hmade : ∀ id, (t.call c).result = .ok (.observer id) → id ∈ gone) :
    Thinned gone (t.call c).tree u ∧
      (t.call c).trace.deliveries.filterMap (Delivery.kept? gone) = [] := by
  cases c with
  | observe x e =>
    obtain ho | ⟨-, hr, ht, hd⟩ := t.observe_cases x e
    · rw [Tree.call, ho]
      exact ⟨h, rfl⟩
    · have hid : t.nextObserver ∈ gone := hmade _ (by rw [Tree.call, Outcome.map, hr]; rfl)
      simp only [Tree.call, Outcome.map, ht, hd, List.filterMap_cons, Delivery.kept?,
        kept?_eq_none_iff.mpr hid, Option.map_none, List.filterMap_nil]
      exact ⟨h.register_gone hid .., trivial⟩
  | observeContext x c =>
    obtain ⟨e, ends, ho⟩ | ⟨-, -, ho⟩ := t.observeContext_cases x c
    · rw [Tree.call, ho]
      exact ⟨h, rfl⟩
    · rw [Tree.call, ho] at hmade ⊢
      exact ⟨h.register_gone (hmade _ rfl) .., rfl⟩
  | _ => cases hs

end Thinned

end DataBinding.Scope
