import DataBinding.Proofs.Scope.Ended
import DataBinding.Proofs.Scope.Reactive
import DataBinding.Proofs.Scope.Subtree

/-!
# A scope that is cleared leaves nothing behind

An implicit scope is a new leaf of the forest, beside the children. What is set there is not in the
rest of the tree, so once the scope is cleared the rest is all there is: the nodes see what they saw
before the scope was made, and the observers that moved to it are back where they were.

* `Layered`: a tree with an implicit scope more.
* `layered_setImplicit`, `Layered.setImplicit`: such a tree is made and goes on so.
* `Layered.mem_removed_iff`: of its nodes, only the scope goes when it is cleared.
* `Restored`: a tree that cannot be told from another by looking. `Layered.restored`: the tree once
  the scope is cleared.
* `Run.restored_calls`: any sequence of settings at an implicit scope that is cleared in the end.
-/

namespace DataBinding.Scope

variable {t u : Tree} {m i : NodeId}

/-! ## Links of nodes that are there -/

/-- Links are those of the nodes that are there. -/
theorem sameLinks_of_live {a b : Arena Node} (hcontains : ∀ x, b.contains x = a.contains x)
    (hparent : ∀ x, a.contains x = true → parentOf b x = parentOf a x)
    (hscope : ∀ x, a.contains x = true → scopeOf b x = scopeOf a x)
    (hchildren : ∀ x, a.contains x = true → childrenOf b x = childrenOf a x) : SameLinks a b := by
  have hgone : ∀ x, ¬ a.contains x = true → b.get? x = a.get? x := fun x hx => by
    rw [Arena.get?_of_not_contains hx, Arena.get?_of_not_contains (hcontains x ▸ hx)]
  refine ⟨hcontains, fun x => ?_, fun x => ?_, fun x => ?_⟩ <;> by_cases hx : a.contains x = true
  · exact hparent x hx
  · rw [parentOf, parentOf, hgone x hx]
  · exact hscope x hx
  · rw [scopeOf, scopeOf, hgone x hx]
  · exact hchildren x hx
  · rw [childrenOf, childrenOf, hgone x hx]

/-! ## A tree with a scope more -/

/-- The second tree is the first one with an implicit scope `i` of `m`, which is a leaf and new. -/
structure Layered (t : Tree) (m i : NodeId) (u : Tree) : Prop where
  new : ¬ t.contains i = true
  bare : scopeOf t.nodes m = none
  contains : ∀ x, u.contains x = true ↔ x = i ∨ t.contains x = true
  parent : ∀ x, t.contains x = true → parentOf u.nodes x = parentOf t.nodes x
  scope : ∀ x, scopeOf u.nodes x = if x = m then some i else scopeOf t.nodes x
  children : ∀ x, childrenOf u.nodes x = childrenOf t.nodes x
  value : ∀ x c, x ≠ i →
    (u.slot? ⟨.node x, c⟩).map (·.value) = (t.slot? ⟨.node x, c⟩).map (·.value)
  global : u.global.value = t.global.value
  globalId : u.globalId = t.globalId
  requests : u.requests = t.requests

/-- An implicit scope for a node that has none is new. -/
theorem layered_addScope (h : Tidy t) (hm : t.contains m = true)
    (hbare : scopeOf t.nodes m = none)
    (hlt : (t.addScope m (parentOf t.nodes m)).nodes.cells.length < UInt32.size) :
    Layered t m t.nodes.nextId (t.addScope m (parentOf t.nodes m)) where
  new := by
    have hold := (grows_addNode t _).cells_lt ((grows_addScope ..).cells_lt hlt)
    have hgone : t.node? t.nodes.nextId = none := Arena.get?_nextId h.sound hold
    rw [Tree.contains, hgone]
    exact Bool.false_ne_true
  bare := hbare
  contains _ := contains_addScope h.sound hlt
  parent x hx := (parentOf_addScope ..).trans
    (parentOf_addNode_of_live h.sound ((grows_addScope ..).cells_lt hlt) hx)
  scope := scopeOf_addScope h.sound hm hlt
  children x := (childrenOf_addScope ..).trans
    (childrenOf_addNode h.sound ((grows_addScope ..).cells_lt hlt) x)
  value x c _ := congrArg _ (Tree.slot?_addScope h.sound hlt ⟨.node x, c⟩)
  global := rfl
  globalId := rfl
  requests := rfl

namespace Layered

theorem scope_self (h : Layered t m i u) : scopeOf u.nodes m = some i :=
  (h.scope m).trans (if_pos rfl)

theorem live_self (h : Layered t m i u) : u.contains i = true :=
  (h.contains i).mpr (Or.inl rfl)

/-- Trees with the same links that differ in the contexts of the scope only. -/
theorem congr (h : Layered t m i u) {v : Tree} (hlinks : SameLinks u.nodes v.nodes)
    (hvalue : ∀ x c, x ≠ i →
      (v.slot? ⟨.node x, c⟩).map (·.value) = (u.slot? ⟨.node x, c⟩).map (·.value))
    (hglobal : v.global.value = u.global.value) (hid : v.globalId = u.globalId)
    (hrequests : v.requests = u.requests) : Layered t m i v where
  new := h.new
  bare := h.bare
  contains x := (Bool.eq_iff_iff.mp (hlinks.contains x)).trans (h.contains x)
  parent x hx := (hlinks.parent x).trans (h.parent x hx)
  scope x := (hlinks.scope x).trans (h.scope x)
  children x := (hlinks.children x).trans (h.children x)
  value x c hx := (hvalue x c hx).trans (h.value x c hx)
  global := hglobal.trans h.global
  globalId := hid.trans h.globalId
  requests := hrequests.trans h.requests

/-- Setting a context at the scope. -/
theorem set (h : Layered t m i u) (hu : Coherent u) {c : String} (hc : c ≠ t.globalId)
    (value : Value) : Layered t m i (u.set i c value).tree := by
  rw [← h.globalId] at hc
  obtain hs | ⟨⟨owner, d⟩, -, hT, -, howner, hs⟩ | ⟨-, -, hgone, hs⟩ := u.set_cases i c value <;>
    rw [hs]
  · exact h
  · obtain rfl : owner = .node i := howner.trans (if_neg hc)
    refine h.congr (sameLinks_write ..) (fun x e hx => ?_) rfl rfl rfl
    rw [Tree.slot?_write hT Target.proper_node, if_neg]
    intro he
    injection he with he
    exact hx (Owner.node.inj he)
  · have hlike := alike_rebindWhere (u.addContext i c value) fun w => c ∈ w.contexts
    refine h.congr ((sameLinks_addContext ..).trans hlike.sameLinks) (fun x e hx => ?_)
      hlike.global hlike.globalId ?_
    · rw [hlike.slot?_value, Tree.slot?_addContext, if_neg]
      rintro ⟨he, -⟩
      injection he with he
      exact hx (Owner.node.inj he)
    · exact requests_rebindWhere (hu.addContext hgone value).indexed _

/-- Setting a context at the implicit scope of the node. -/
theorem setImplicit (h : Layered t m i u) (hu : Coherent u) {c : String} (hc : c ≠ t.globalId)
    (value : Value) : Layered t m i (u.setImplicit m c value).tree := by
  obtain hs | ⟨j, hj, -, hs⟩ | ⟨-, hnone, -⟩ := u.setImplicit_cases m c value
  · rw [hs]
    exact h
  · obtain rfl := Option.some.inj (h.scope_self.symm.trans hj)
    rw [hs]
    exact h.set hu hc value
  · exact absurd h.live_self (hnone i h.scope_self)

/-! ## Clearing the scope -/

section Clear

variable {x : NodeId}

theorem ne_of_live (h : Layered t m i u) (hx : t.contains x = true) : x ≠ i := by
  rintro rfl
  exact h.new hx

theorem live_dropScope (h : Layered t m i u) : (u.dropScope m).contains i = true :=
  (contains_dropScope u m i).trans h.live_self

/-- Only the scope goes with it. -/
theorem mem_removed_iff (h : Layered t m i u) (hu : Forest u.nodes) :
    x ∈ (u.dropScope m).removed i ↔ x = i := by
  constructor
  · refine of_mem_dismantle (fun x hx _ => List.mem_singleton.mp hx) ?_
    rintro x y rfl (hchild | hscope) -
    · rw [childrenOf_unlink (forestBut_dropScope hu h.scope_self), childrenOf_dropScope, h.children,
        childrenOf_of_gone h.new] at hchild
      cases hchild
    · rw [scopeOf_unlink] at hscope
      obtain ⟨hne, hscope⟩ := scopeOf_dropScope.mp hscope
      rw [h.scope, if_neg hne] at hscope
      exact absurd (contains_of_scopeOf hscope) h.new
  · rintro rfl
    exact mem_removed_self h.live_dropScope

/-- **The links** are those of the tree before. -/
theorem sameLinks_clear (h : Layered t m i u) (ht : Forest t.nodes) (hu : Forest u.nodes) :
    SameLinks t.nodes ((u.dropScope m).remove i).tree.nodes := by
  have hlive := h.live_dropScope
  have hstays : ∀ {x}, t.contains x = true → x ∉ (u.dropScope m).removed i := fun hx hmem =>
    h.ne_of_live hx ((h.mem_removed_iff hu).mp hmem)
  refine sameLinks_of_live (fun x => ?_) (fun x hx => ?_) (fun x hx => ?_) fun x hx => ?_
  · rw [Bool.eq_iff_iff, contains_remove hlive, h.mem_removed_iff hu, contains_dropScope]
    refine (and_congr_right fun _ => h.contains x).trans ⟨?_, fun hx => ⟨h.ne_of_live hx, .inr hx⟩⟩
    exact fun hx => hx.2.resolve_left hx.1
  · rw [parentOf_remove hlive (hstays hx), parentOf_dropScope, h.parent x hx]
  · refine Option.ext fun j => ?_
    rw [scopeOf_remove hlive, and_iff_right (hstays hx)]
    refine scopeOf_dropScope.trans ?_
    rw [h.scope]
    by_cases hxm : x = m
    · simp [hxm, h.bare]
    · simp [hxm]
  · rw [childrenOf_remove_eq hlive (hstays hx),
      childrenOf_unlink (forestBut_dropScope hu h.scope_self), childrenOf_dropScope, h.children]
    refine List.filter_eq_self.mpr fun y hy => bne_iff_ne.mpr (h.ne_of_live ?_)
    exact contains_of_parentOf (ht.parent_of_child hy)

/-- **The values** are those of the tree before. -/
theorem value_clear (h : Layered t m i u) (hu : Forest u.nodes) (x : NodeId) (c : String) :
    (((u.dropScope m).remove i).tree.slot? ⟨.node x, c⟩).map (·.value) =
      (t.slot? ⟨.node x, c⟩).map (·.value) := by
  rw [(alike_remove h.live_dropScope).slot?_value, Tree.slot?_cut, Tree.slot?_dropScope]
  by_cases hx : x = i
  · have hgone : t.node? x = none := hx ▸ Arena.get?_of_not_contains h.new
    rw [if_pos ⟨x, (h.mem_removed_iff hu).mpr hx, rfl⟩]
    simp only [Tree.slot?, hgone, Option.bind_none]
  · rw [if_neg, h.value x c hx]
    rintro ⟨y, hy, he⟩
    exact hx ((Owner.node.inj he).trans ((h.mem_removed_iff hu).mp hy))

/-- **The observers** are those of the tree before. -/
theorem requests_clear (h : Layered t m i u) (ht : Forest t.nodes) (hseat : Seated t)
    (hu : Tidy u) : ((u.dropScope m).remove i).tree.requests = t.requests := by
  have hlive := seated_iff.mp hseat
  have hdrop : (u.dropScope m).requests = t.requests := h.requests
  have hseat' : Seated (u.dropScope m) := seated_iff.mpr fun w hw =>
    (contains_dropScope u m _).trans ((h.contains _).mpr (Or.inr (hlive w (hdrop ▸ hw))))
  have hsurvive := survive_remove (hu.toCoherent.dropScope m) hseat' i
  rw [Survive, hdrop] at hsurvive
  rw [hsurvive]
  refine List.filter_eq_self.mpr fun w hw => ?_
  exact ((h.sameLinks_clear ht hu.forest).contains _).trans (hlive w hw)

end Clear

end Layered

/-! ## Trees that look the same -/

/-- Looking does not tell the second tree from the first: the same nodes are there in the same
places, each sees the same contexts with the same values, and the same observers find the same. -/
structure Restored (t u : Tree) : Prop where
  contains : ∀ x, u.contains x = t.contains x
  owner : ∀ x, t.contains x = true → ∀ c, u.owner? x c = t.owner? x c
  value : ∀ x, t.contains x = true → ∀ c, u.value? x c = t.value? x c
  parent : ∀ x, t.contains x = true → u.parent? x = t.parent? x
  children : ∀ x, t.contains x = true → u.children x = t.children x
  observers : ∀ id, (u.watch? id).isSome = (t.watch? id).isSome
  targets : ∀ id, u.targets id = t.targets id

theorem find?_requests (t : Tree) (id : ObserverId) :
    t.requests.find? (·.id == id) = (t.watch? id).map Watch.request :=
  List.find?_map ..

/-- What an observer finds follows from what it was asked for. -/
theorem Fresh.targets_eq_resolve (h : Fresh t) (hi : Indexed t) (id : ObserverId) :
    t.targets id =
      (((t.watch? id).map Watch.request).map fun w =>
        t.resolve w.subscriber w.contexts).getD [] := by
  rw [Tree.targets]
  cases hw : t.watch? id with
  | none => rfl
  | some w => exact h.targets w (hi.watch?_eq_some_iff.mp hw).1

/-- Trees with the same links, values and observers look the same. -/
theorem restored_of_sameLinks (ht : Tidy t) (hft : Fresh t) (hu : Tidy u) (hfu : Fresh u)
    (hlinks : SameLinks t.nodes u.nodes) (hid : u.globalId = t.globalId)
    (hglobal : u.global.value = t.global.value)
    (hvalue : ∀ x c, (u.slot? ⟨.node x, c⟩).map (·.value) = (t.slot? ⟨.node x, c⟩).map (·.value))
    (hrequests : u.requests = t.requests) : Restored t u := by
  have howner : ∀ x, t.contains x = true → ∀ c, u.owner? x c = t.owner? x c := fun x hx c =>
    ht.owner?_of_live hid (fun y hy => (hlinks.contains y).trans hy)
      (fun y _ => hlinks.parent y) (fun y _ => hlinks.scope y) (fun y _ => by
        rw [holds_eq_isSome_slot?, holds_eq_isSome_slot?]
        simpa only [Option.isSome_map] using congrArg Option.isSome (hvalue y c)) hx
  have hwatch (id : ObserverId) :
      (u.watch? id).map Watch.request = (t.watch? id).map Watch.request := by
    rw [← find?_requests, ← find?_requests, hrequests]
  constructor
  case contains => exact hlinks.contains
  case owner => exact howner
  case value =>
    refine fun x hx c => value?_congr (howner x hx c) fun o _ => ?_
    cases o with
    | global => exact congrArg some hglobal
    | node y => exact hvalue y c
  case parent => exact fun x _ => hlinks.parent x
  case children => exact fun x _ => hlinks.children x
  case observers =>
    intro id
    simpa only [Option.isSome_map] using congrArg Option.isSome (hwatch id)
  case targets =>
    -- what an observer finds is what is seen from its node, on either side
    intro id
    rw [hfu.targets_eq_resolve hu.indexed, hft.targets_eq_resolve ht.indexed, hwatch]
    cases hw : t.watch? id with
    | none => rfl
    | some w =>
      refine resolve_congr fun c _ => howner _ ?_ c
      exact hft.seated w (ht.indexed.watch?_eq_some_iff.mp hw).1

namespace Layered

theorem clearImplicit_eq (h : Layered t m i u) : u.clearImplicit m = (u.dropScope m).remove i := by
  obtain hs | ⟨j, hj, -, hs⟩ | ⟨-, hnone, -⟩ := u.clearImplicit_cases m
  · have hresult := Tree.result_clearImplicit (contains_of_scopeOf h.scope_self)
    rw [hs] at hresult
    cases hresult
  · obtain rfl := Option.some.inj (h.scope_self.symm.trans hj)
    exact hs
  · exact absurd h.live_self (hnone i h.scope_self)

/-- **Clearing the scope** gives back the tree before, to all who look. -/
theorem restored (h : Layered t m i u) (ht : Tidy t ∧ Fresh t) (hu : Tidy u)
    (hclear : Tidy (u.clearImplicit m).tree ∧ Fresh (u.clearImplicit m).tree) :
    Restored t (u.clearImplicit m).tree := by
  have hforest := ht.1.forest
  rw [h.clearImplicit_eq] at hclear ⊢
  exact restored_of_sameLinks ht.1 ht.2 hclear.1 hclear.2 (h.sameLinks_clear hforest hu.forest)
    ((Tree.globalId_remove ..).trans h.globalId) ((global_remove h.live_dropScope).trans h.global)
    (h.value_clear hu.forest) (h.requests_clear hforest ht.2.seated hu)

end Layered

/-! ## Runs -/

/-- Contexts are set at the implicit scope of a node, and in the end that is cleared. -/
def settings (m : NodeId) (cs : List (String × Value)) : List Call :=
  cs.map (fun c => .setImplicit m c.1 c.2) ++ [.clearImplicit m]

/-- The scope is made when the first context is set. -/
theorem layered_setImplicit (h : Tidy t) (hm : t.contains m = true)
    (hbare : scopeOf t.nodes m = none) {c : String} (hc : c ≠ t.globalId) (value : Value)
    (hlt : (t.setImplicit m c value).tree.nodes.cells.length < UInt32.size) :
    Layered t m t.nodes.nextId (t.setImplicit m c value).tree := by
  obtain hs | ⟨i, hi, -, -⟩ | ⟨-, -, hs⟩ := t.setImplicit_cases m c value
  · have hold : t.nodes.cells.length < UInt32.size := (hs ▸ hlt :)
    have hresult := Tree.result_setImplicit h.sound hold hm c value
    rw [hs] at hresult
    cases hresult
  · rw [hbare] at hi
    cases hi
  · rw [hs] at hlt ⊢
    have hmade := (grows_set ..).cells_lt hlt
    exact (layered_addScope h hm hbare hmade).set (h.toCoherent.addScope m hmade) hc value

namespace Run

variable {log : List Exchange} {globalId : String} {value : Value} {registry : Registry}

/-- Whatever is set at a scope that is there, once it is cleared the tree is as it was before the
scope. -/
theorem restored_layered (hrun : Run SparesScopes (.new globalId value registry) log u)
    (h : Layered t m i u) (ht : Tidy t ∧ Fresh t) {cs : List (String × Value)}
    (hcs : ∀ c ∈ cs, c.1 ≠ t.globalId)
    (hlt : (u.calls (settings m cs)).2.nodes.cells.length < UInt32.size) :
    (∀ x ∈ (u.calls (settings m cs)).1, x.result = .ok .done) ∧
      Restored t (u.calls (settings m cs)).2 := by
  have hlive : u.contains m = true := contains_of_scopeOf h.scope_self
  have hold := (Tree.grows_calls u _).cells_lt hlt
  have hu := (hrun.tidy_fresh hold).1
  -- each setting leaves the tree a layer above the first one, until the scope is cleared
  induction cs generalizing u log with
  | nil =>
    have hclear := (hrun.call (.clearImplicit m) nofun).tidy_fresh hlt
    refine ⟨fun x hx => ?_, h.restored ht hu hclear⟩
    obtain rfl := List.mem_singleton.mp hx
    exact congrArg (Except.map _) (Tree.result_clearImplicit hlive)
  | cons c cs ih =>
    obtain ⟨hc, hcs⟩ := List.forall_mem_cons.mp hcs
    have hnext := h.setImplicit hu.toCoherent hc c.2
    have hcall := hrun.call (.setImplicit m c.1 c.2) nofun
    have hmid := (Tree.grows_calls _ (settings m cs)).cells_lt hlt
    obtain ⟨hresults, hrest⟩ := ih hcall hnext hcs hlt (contains_of_scopeOf hnext.scope_self) hmid
      (hcall.tidy_fresh hmid).1
    refine ⟨List.forall_mem_cons.mpr ⟨?_, hresults⟩, hrest⟩
    exact congrArg (Except.map _) (Tree.result_setImplicit hu.sound hold hlive c.1 c.2)

/-- **A scope that is cleared leaves nothing behind.** After any run that spares implicit scopes,
let a node have none. Whatever contexts are set at its scope, all of them are accepted, and once the
scope is cleared the tree cannot be told from the one before. -/
theorem restored_calls (h : Run SparesScopes (.new globalId value registry) log t)
    (hm : t.contains m = true) (hnone : ∀ i, scopeOf t.nodes m = some i → ¬ t.contains i = true)
    {cs : List (String × Value)} (hne : cs ≠ []) (hcs : ∀ c ∈ cs, c.1 ≠ t.globalId)
    (hlt : (t.calls (settings m cs)).2.nodes.cells.length < UInt32.size) :
    (∀ x ∈ (t.calls (settings m cs)).1, x.result = .ok .done) ∧
      Restored t (t.calls (settings m cs)).2 := by
  obtain ⟨c, cs, rfl⟩ := List.exists_cons_of_ne_nil hne
  obtain ⟨hc, hcs⟩ := List.forall_mem_cons.mp hcs
  have hold := (Tree.grows_calls t _).cells_lt hlt
  have ht := h.tidy_fresh hold
  -- a node keeps no reference to a scope that is gone
  have hbare : scopeOf t.nodes m = none := by
    cases hscope : scopeOf t.nodes m with
    | none => rfl
    | some i => exact absurd (ht.1.intact m i hscope) (hnone i hscope)
  have hcall := h.call (.setImplicit m c.1 c.2) nofun
  have hmid := (Tree.grows_calls _ (settings m cs)).cells_lt hlt
  have hlayered := layered_setImplicit ht.1 hm hbare hc c.2 hmid
  obtain ⟨hresults, hrest⟩ := hcall.restored_layered hlayered ht hcs hlt
  refine ⟨List.forall_mem_cons.mpr ⟨?_, hresults⟩, hrest⟩
  exact congrArg (Except.map _) (Tree.result_setImplicit ht.1.sound hold hm c.1 c.2)

/-- A child observes a context of its parent. -/
def observedAbove : List Exchange × Tree :=
  (Tree.new "global" .null .empty).calls
    [.addRoot, .addChild ⟨0, 0⟩, .set ⟨0, 0⟩ "a" .null,
      .observe ⟨1, 0⟩ (.single (.binding ⟨"a", []⟩))]

/-- The child sets contexts of its own, among them one of the same name. -/
def moving : List (String × Value) :=
  [("b", .null), ("a", .bool true)]

/-- The observer finds the context of the parent, then that of the child's scope, and at last that
of the parent again. -/
theorem restored_calls_of_moved :
    let t := observedAbove.2
    t.contains ⟨1, 0⟩ = true ∧ (∀ i, scopeOf t.nodes ⟨1, 0⟩ = some i → ¬ t.contains i = true) ∧
      moving ≠ [] ∧ (∀ c ∈ moving, c.1 ≠ t.globalId) ∧
      (t.calls (settings ⟨1, 0⟩ moving)).2.nodes.cells.length < UInt32.size ∧
      t.targets 1 = [⟨.node ⟨0, 0⟩, "a"⟩] ∧
      (t.calls (moving.map fun c => .setImplicit ⟨1, 0⟩ c.1 c.2)).2.targets 1 =
        [⟨.node ⟨2, 0⟩, "a"⟩] ∧
      (∀ x ∈ (t.calls (settings ⟨1, 0⟩ moving)).1, x.result = .ok .done) ∧
      Restored t (t.calls (settings ⟨1, 0⟩ moving)).2 := by
  have hrun : Run SparesScopes (.new "global" .null .empty) observedAbove.1 observedAbove.2 :=
    Run.of_calls fun t c hc x hx => by
      subst hx
      simp at hc
  have hlive : observedAbove.2.contains ⟨1, 0⟩ = true := by decide
  have hbare : scopeOf observedAbove.2.nodes ⟨1, 0⟩ = none := by decide
  have hnone : ∀ i, scopeOf observedAbove.2.nodes ⟨1, 0⟩ = some i →
      ¬ observedAbove.2.contains i = true := hbare ▸ nofun
  have hne : moving ≠ [] := by decide
  have hids : ∀ c ∈ moving, c.1 ≠ observedAbove.2.globalId := by decide
  have hlt : (observedAbove.2.calls (settings ⟨1, 0⟩ moving)).2.nodes.cells.length <
      UInt32.size := by cbv
  exact ⟨hlive, hnone, hne, hids, hlt, by decide, by decide,
    Run.restored_calls hrun hlive hnone hne hids hlt⟩

end Run

end DataBinding.Scope
