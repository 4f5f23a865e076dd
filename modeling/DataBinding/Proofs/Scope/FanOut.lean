import DataBinding.Proofs.Scope.Subscriptions
import DataBinding.Proofs.Scope.Links

/-!
# Whom a call tells

A call that writes a context tells the observers that target it afterwards; one that removes nodes
tells the observers that had a target on one of them. Each is told once, in the order of
registration, what it sees when everything has settled. What that is depends on the call that once
made the observer, which is in the log.

* `Call.Concerns`: the observers that a call has to tell.
* `Call.Informs`: what the observer that a call made has to be told by another.
* `Call.Supplies`: the same in terms of what the tree keeps of an observer; `Coherent.spread_call`:
  every call does this.
* `Run.fanOut`: exactly these are told exactly that.
-/

namespace DataBinding.Scope

variable {t u : Tree}

/-! ## What has to be told -/

/-- The context that a call wrote, given the trees before and after it. -/
def Call.written (t u : Tree) : Call → Option Target
  | .set x c _ => some ⟨if c = t.globalId then .global else .node x, c⟩
  | .setAt x c _ _ => (t.owner? x c).map (⟨·, c⟩)
  | .setImplicit m c _ =>
    if c = t.globalId then some ⟨.global, c⟩
    else (scopeOf u.nodes m).map fun i => ⟨.node i, c⟩
  | _ => none

/-- A call with this answer has to tell the observer. -/
def Call.Concerns (t u : Tree) (answer : Answer) (id : ObserverId) : Call → Prop
  | .observe _ _ => answer = .observer id
  | .remove _ | .clearImplicit _ =>
    (u.watch? id).isSome = true ∧
      ∃ T ∈ t.targets id, ∃ x, T.owner = .node x ∧ t.contains x = true ∧ ¬ u.contains x = true
  | c => ∃ T ∈ u.targets id, c.written t u = some T

/-- The call informs the observer that another one made: it is told the value of the expression that
was to be observed, from the node where it was to be observed, in the tree after the call. One that
was to observe a context is told the value of the context written, or what that context is now for
its node. -/
def Call.Informs (t u : Tree) (c : Call) (d : Delivery) : Call → Prop
  | .observe x e => d.value = (u.eval x e).value
  | .observeContext x k =>
    match c.written t u with
    | some T => ∃ s, u.slot? T = some s ∧ d.value = s.value
    | none => d.value = (u.value? x k).getD .null
  | _ => False

/-- The observer that is there in the tree is told what it has to be. -/
def Call.Supplies (t u : Tree) (c : Call) (d : Delivery) : Prop :=
  ∃ w, u.watch? d.observer = some w ∧
    match w.subject, c.written t u with
    | .expression e, _ => d.value = (u.eval w.subscriber e).value
    | .context, some T => ∃ s, u.slot? T = some s ∧ d.value = s.value
    | .context, none => ∃ x, w.contexts = [x] ∧ d.value = (u.value? w.subscriber x).getD .null

/-- What supplies an observer informs it: it is as the call that made it asked for. -/
theorem Call.Supplies.informs {log : List Exchange} {c : Call} {d : Delivery}
    (h : c.Supplies t u d) (hb : Booked log u) (hu : Indexed u) {x : Exchange} (hx : x ∈ log)
    (hr : x.result = .ok (.observer d.observer)) : c.Informs t u d x.call := by
  obtain ⟨w, hwatch, htold⟩ := h
  obtain ⟨hw, hid⟩ := hu.watch?_eq_some_iff.mp hwatch
  have hmade := hb.made x hx w hw (hid ▸ hr)
  cases hc : x.call with
  | observe y e =>
    rw [hc] at hmade
    obtain ⟨rfl, -, hsubject⟩ := hmade
    rw [hsubject] at htold
    exact htold
  | observeContext y k =>
    rw [hc] at hmade
    obtain ⟨rfl, hcontexts, hsubject⟩ := hmade
    rw [hsubject] at htold
    rw [Call.Informs]
    cases hwritten : c.written t u with
    | some T =>
      rw [hwritten] at htold
      exact htold
    | none =>
      rw [hwritten, hcontexts] at htold
      obtain ⟨k', hk, hval⟩ := htold
      obtain rfl := List.singleton_inj.mp hk
      exact hval
  | _ =>
    rw [hc] at hmade
    exact hmade.elim

/-! ## Telling a list of observers -/

/-- What an observer is told when others are told a value. -/
def Tree.news (t : Tree) (w : Watch) (value : Value) : Value :=
  match w.subject with
  | .expression e => (t.eval w.subscriber e).value
  | .context => value

theorem Tree.deliveries_tell (t : Tree) (w : Watch) (value : Value) :
    (t.tell w value).deliveries = [⟨w.id, t.news w value⟩] := by
  unfold tell news
  cases w.subject <;> rfl

/-- The observers `ids` are told, each once and in order, each what `value` says of it. -/
structure Tells (u : Tree) (ds : List Delivery) (ids : List ObserverId) (value : Watch → Value) :
    Prop where
  observers : ds.map (·.observer) = ids
  news : ∀ d ∈ ds, ∃ w, u.watch? d.observer = some w ∧ d.value = u.news w (value w)

/-- They are told what they have to be, if those without an expression are. -/
theorem Tells.supplies {c : Call} {ds : List Delivery} {ids : List ObserverId}
    {value : Watch → Value} (h : Tells u ds ids value)
    (hcontext : ∀ id w, u.watch? id = some w → w.subject = .context →
      match c.written t u with
      | some T => ∃ s, u.slot? T = some s ∧ value w = s.value
      | none => ∃ x, w.contexts = [x] ∧ value w = (u.value? w.subscriber x).getD .null)
    {d : Delivery} (hd : d ∈ ds) : c.Supplies t u d := by
  obtain ⟨w, hw, hval⟩ := h.news d hd
  refine ⟨w, hw, ?_⟩
  rw [hval, Tree.news]
  cases hsub : w.subject with
  | expression e => cases c.written t u <;> rfl
  | context =>
    have hc := hcontext _ w hw hsub
    cases hwritten : c.written t u <;> rwa [hwritten] at hc

/-- Telling each observer of a list that is there. -/
theorem tells_concat {value : Watch → Value} {tell : ObserverId → Trace} {ids : List ObserverId}
    (h : ∀ id ∈ ids, ∃ w, u.watch? id = some w ∧ w.id = id ∧ tell id = u.tell w (value w)) :
    Tells u (Trace.concat (ids.map tell)).deliveries ids value := by
  induction ids with
  | nil => exact ⟨rfl, nofun⟩
  | cons id ids ih =>
    obtain ⟨w, hw, rfl, htell⟩ := h id List.mem_cons_self
    obtain ⟨hobs, hnews⟩ := ih fun i hi => h i (List.mem_cons_of_mem _ hi)
    have hcons : (Trace.concat ((w.id :: ids).map tell)).deliveries =
        ⟨w.id, u.news w (value w)⟩ :: (Trace.concat (ids.map tell)).deliveries := by
      simp only [Trace.concat, List.map_cons, List.flatMap_cons, htell, Tree.deliveries_tell,
        List.singleton_append]
    rw [hcons]
    refine ⟨by rw [List.map_cons, hobs], fun d hd => ?_⟩
    rcases List.mem_cons.mp hd with rfl | hd
    · exact ⟨w, hw, rfl⟩
    · exact hnews d hd

/-- **A context tells exactly the observers that target it.** -/
theorem tells_notify (h : Indexed u) {T : Target} (hT : T.Proper u.globalId) {s : Slot}
    (hs : u.slot? T = some s) :
    Tells u (u.notify T).deliveries (u.listeners T) fun _ => s.value := by
  unfold Tree.notify
  rw [hs]
  simp only [h.observers hT hs]
  refine tells_concat fun id hid => ?_
  obtain ⟨w, hw, rfl, -⟩ := Tree.mem_listeners.mp hid
  have hfind := h.watch?_eq_some_iff.mpr ⟨hw, rfl⟩
  exact ⟨w, hfind, rfl, by rw [hfind]⟩

/-- Observers that moved are told what they see now. -/
theorem tells_fire (h : Indexed u) {ids : List ObserverId}
    (hids : ∀ id ∈ ids, ∃ w ∈ u.watches, w.id = id) :
    Tells u (Trace.concat (ids.map u.fire)).deliveries ids
      fun w => (w.contexts.head?.bind (u.value? w.subscriber)).getD .null := by
  refine tells_concat fun id hid => ?_
  obtain ⟨w, hw, rfl⟩ := hids id hid
  have hfind := h.watch?_eq_some_iff.mpr ⟨hw, rfl⟩
  exact ⟨w, hfind, rfl, by rw [Tree.fire, hfind]⟩

/-! ## Targets -/

theorem Indexed.mem_targets (h : Indexed t) {id : ObserverId} {T : Target} :
    T ∈ t.targets id ↔ ∃ w ∈ t.watches, w.id = id ∧ T ∈ w.targets := by
  unfold Tree.targets
  cases hf : t.watch? id with
  | none =>
    simp only [Option.map_none, Option.getD_none, List.not_mem_nil, false_iff]
    rintro ⟨w, hw, he, -⟩
    rw [h.watch?_eq_some_iff.mpr ⟨hw, he⟩] at hf
    cases hf
  | some w =>
    obtain ⟨hw, rfl⟩ := h.watch?_eq_some_iff.mp hf
    simp only [Option.map_some, Option.getD_some]
    constructor
    · exact fun hT => ⟨w, hw, rfl, hT⟩
    · rintro ⟨v, hv, he, hT⟩
      rwa [h.eq_of_id_eq hv hw he] at hT

theorem Indexed.mem_listeners_iff (h : Indexed t) {id : ObserverId} {T : Target} :
    id ∈ t.listeners T ↔ T ∈ t.targets id :=
  Tree.mem_listeners.trans h.mem_targets.symm

theorem Indexed.isSome_watch?_iff (h : Indexed t) {id : ObserverId} :
    (t.watch? id).isSome = true ↔ ∃ w ∈ t.watches, w.id = id := by
  rw [Option.isSome_iff_exists]
  exact exists_congr fun w => h.watch?_eq_some_iff

/-! ## Writing and removing -/

theorem isSome_slot?_write {T : Target} (hT : T.Proper t.globalId)
    (hs : (t.slot? T).isSome = true) (f : Value → Value) :
    ((t.write T f).slot? T).isSome = true := by
  rw [Tree.slot?_write hT hT, if_pos rfl, Option.isSome_map]
  exact hs

/-- Setting a context is refused and tells nobody, or the context that was set tells its
observers. -/
theorem notify_set (t : Tree) (x : NodeId) (c : String) (value : Value) :
    ((∃ e, (t.set x c value).result = .error e) ∧ (t.set x c value).trace.deliveries = []) ∨
      (t.set x c value).result = .ok () ∧ ∃ T : Target,
        T = ⟨if c = t.globalId then .global else .node x, c⟩ ∧ T.Proper t.globalId ∧
        ((t.set x c value).tree.slot? T).isSome = true ∧
        (t.set x c value).trace = (t.set x c value).tree.notify T := by
  obtain h | ⟨T, hTc, hT, hlive, howner, h⟩ | ⟨hc, hx, hgone, h⟩ := t.set_cases x c value <;>
    rw [h]
  · exact Or.inl ⟨⟨_, rfl⟩, rfl⟩
  · refine Or.inr ⟨rfl, T, ?_, hT, isSome_slot?_write hT hlive _, rfl⟩
    obtain ⟨owner, d⟩ := T
    simp only at hTc howner
    rw [hTc, howner]
  · refine Or.inr ⟨rfl, ⟨.node x, c⟩, by rw [if_neg hc], Target.proper_node, ?_, rfl⟩
    rw [(alike_rebindWhere _ _).slot?_isSome, Tree.slot?_addContext, if_pos ⟨rfl, hx⟩]
    rfl

theorem tells_remove (h : Coherent t) {x : NodeId} (hx : t.contains x = true) :
    ∃ ids, Tells (t.remove x).tree (t.remove x).trace.deliveries ids
        (fun w => (w.contexts.head?.bind ((t.remove x).tree.value? w.subscriber)).getD .null) ∧
      ids.Pairwise (· < ·) ∧
      ∀ id, id ∈ ids ↔ ((t.remove x).tree.watch? id).isSome = true ∧
        ∃ T ∈ t.targets id, ∃ y, T.owner = .node y ∧ t.contains y = true ∧
          ¬ (t.remove x).tree.contains y = true := by
  have hcoh := h.remove x
  have hremoved : ∀ y, y ∈ t.removed x ↔
      t.contains y = true ∧ ¬ (t.remove x).tree.contains y = true :=
    fun y => mem_removed_iff hx
  rw [Tree.remove_of_contains hx] at hcoh hremoved ⊢
  have hind := h.indexed_without x
  have hws := hind.watches_rebindWhere (Tree.targetsAny (t.removed x))
  have hids : ∀ id, (∃ w ∈ ((t.without x).rebindWhere (Tree.targetsAny (t.removed x))).1.watches,
      w.id = id) ↔ ∃ w ∈ (t.without x).watches, w.id = id := by
    intro id
    simp only [hws, List.mem_map, exists_exists_and_eq_and]
    refine exists_congr fun w => and_congr_right fun _ => ?_
    split <;> exact Iff.rfl
  refine ⟨_, tells_fire hcoh.indexed fun id hid => ?_, hind.pairwise_rebindWhere, fun id => ?_⟩
  · obtain ⟨w, hw, he, -⟩ := hind.mem_rebindWhere.mp hid
    exact (hids id).mpr ⟨w, hw, he⟩
  · rw [hcoh.indexed.isSome_watch?_iff, hids, hind.mem_rebindWhere]
    have hgone : ∀ T y, T.owner = .node y → y ∈ t.removed x → (t.without x).slot? T = none :=
      fun T y hT hy => Option.not_isSome_iff_eq_none.mp fun hs =>
        ((t.isSome_slot?_without x T).mp hs).1 ⟨y, hy, hT⟩
    constructor
    · rintro ⟨w, hw, rfl, ha, -⟩
      obtain ⟨T, hT, y, hy, hTy⟩ := Tree.targetsAny_iff.mp ha
      have hwt : w ∈ t.watches := List.mem_of_mem_filter (t.watches_without x ▸ hw)
      exact ⟨⟨w, hw, rfl⟩, T, h.indexed.mem_targets.mpr ⟨w, hwt, rfl, hT⟩, y, hTy,
        (hremoved y).mp hy⟩
    · rintro ⟨⟨w, hw, rfl⟩, T, hT, y, hTy, hlive⟩
      have hy := (hremoved y).mpr hlive
      obtain ⟨v, hv, he, hvT⟩ := h.indexed.mem_targets.mp hT
      have hwt : w ∈ t.watches := List.mem_of_mem_filter (t.watches_without x ▸ hw)
      obtain rfl := h.indexed.eq_of_id_eq hv hwt he
      refine ⟨v, hw, rfl, Tree.targetsAny_iff.mpr ⟨T, hvT, y, hy, hTy⟩, fun hsame => ?_⟩
      rw [← hsame] at hvT
      have := Tree.slot?_of_owner? (Tree.mem_resolve.mp hvT).2
      rw [hgone T y hTy hy] at this
      cases this

/-! ## One call -/

/-- The call tells exactly those whom it has to, each once, in the order of registration, and what
they have to be told as the tree keeps them. -/
structure Spread (t : Tree) (c : Call) : Prop where
  ordered : ((t.call c).trace.deliveries.map (·.observer)).Pairwise (· < ·)
  told : ∀ id, id ∈ (t.call c).trace.deliveries.map (·.observer) ↔
    ∃ answer, (t.call c).result = .ok answer ∧ c.Concerns t (t.call c).tree answer id
  news : ∀ d ∈ (t.call c).trace.deliveries, c.Supplies t (t.call c).tree d

namespace Spread

/-- A call that is refused tells nobody. -/
theorem of_error {c : Call} {e : ScopeError} (hr : (t.call c).result = .error e)
    (hd : (t.call c).trace.deliveries = []) : Spread t c where
  ordered := by
    rw [hd]
    exact List.Pairwise.nil
  told id := by
    rw [hd, hr]
    simp
  news := by
    rw [hd]
    exact nofun

theorem of_noNode {α : Type} {c : Call} {x : NodeId} {f : α → Answer}
    (hc : t.call c = (t.noNode x).map f) : Spread t c := by
  refine of_error (e := .nodeNotFound x) ?_ ?_
  · rw [hc]
    rfl
  · rw [hc]
    rfl

/-- So does one that concerns nobody. -/
theorem of_nobody {c : Call} (hc : ∀ a id, ¬ c.Concerns t (t.call c).tree a id)
    (hd : (t.call c).trace.deliveries = []) : Spread t c where
  ordered := by
    rw [hd]
    exact List.Pairwise.nil
  told id := by
    rw [hd]
    simp [hc]
  news := by
    rw [hd]
    exact nofun

/-- For instance one that could only concern the observers of what it wrote, and wrote nothing. -/
theorem of_unwritten {c : Call} (hw : c.written t (t.call c).tree = none)
    (hc : ∀ a id, c.Concerns t (t.call c).tree a id →
      ∃ T ∈ (t.call c).tree.targets id, c.written t (t.call c).tree = some T)
    (hd : (t.call c).trace.deliveries = []) : Spread t c := by
  refine of_nobody (fun a id h => ?_) hd
  obtain ⟨T, -, hT⟩ := hc a id h
  rw [hw] at hT
  cases hT

/-- A context that was written tells its observers. -/
theorem of_notify {c : Call} {T : Target} (hu : Coherent (t.call c).tree)
    (hT : T.Proper (t.call c).tree.globalId)
    (hs : ((t.call c).tree.slot? T).isSome = true) {a : Answer} (hr : (t.call c).result = .ok a)
    (hd : (t.call c).trace.deliveries = ((t.call c).tree.notify T).deliveries)
    (hw : c.written t (t.call c).tree = some T)
    (hc : ∀ id, c.Concerns t (t.call c).tree a id ↔
      ∃ T ∈ (t.call c).tree.targets id, c.written t (t.call c).tree = some T) : Spread t c := by
  obtain ⟨s, hs⟩ := Option.isSome_iff_exists.mp hs
  have htells := tells_notify hu.indexed hT hs
  rw [← hd] at htells
  refine ⟨?_, fun id => ?_, fun d => htells.supplies fun id w _ _ => ?_⟩
  · rw [htells.observers]
    exact hu.indexed.pairwise_listeners T
  · rw [htells.observers, hu.indexed.mem_listeners_iff, hr]
    simp [hc, hw]
  · rw [hw]
    exact ⟨s, hs, rfl⟩

/-- Nodes that went away tell the observers that had a target there. -/
theorem of_removal {c : Call} {ids : List ObserverId} {a : Answer}
    (hsingle : ∀ w ∈ (t.call c).tree.watches, w.subject = .context → ∃ x, w.contexts = [x])
    (hu : Indexed (t.call c).tree) (hr : (t.call c).result = .ok a)
    (htells : Tells (t.call c).tree (t.call c).trace.deliveries ids fun w =>
      (w.contexts.head?.bind ((t.call c).tree.value? w.subscriber)).getD .null)
    (hp : ids.Pairwise (· < ·)) (hids : ∀ id, id ∈ ids ↔ c.Concerns t (t.call c).tree a id)
    (hw : c.written t (t.call c).tree = none) : Spread t c := by
  refine ⟨?_, fun id => ?_, fun d => htells.supplies fun id w hwatch hsub => ?_⟩
  · rwa [htells.observers]
  · rw [htells.observers, hids, hr]
    simp
  · obtain ⟨x, hx⟩ := hsingle w (hu.watch?_eq_some_iff.mp hwatch).1 hsub
    rw [hw, hx]
    exact ⟨x, rfl, rfl⟩

theorem set {c : Call} (hu : Coherent (t.call c).tree) {s : Tree} {x : NodeId} {d : String}
    {value : Value} (hid : s.globalId = (t.call c).tree.globalId)
    (hcall : t.call c = (s.set x d value).map fun _ => .done)
    (hw : ∀ T : Target, T = ⟨if d = s.globalId then .global else .node x, d⟩ →
      c.written t (t.call c).tree = some T)
    (hc : ∀ id, c.Concerns t (t.call c).tree .done id ↔
      ∃ T ∈ (t.call c).tree.targets id, c.written t (t.call c).tree = some T) : Spread t c := by
  rcases notify_set s x d value with ⟨⟨e, hr⟩, hd⟩ | ⟨hr, T, hTd, hT, hs, hd⟩
  · refine of_error (e := e) ?_ ?_
    · rw [hcall, Outcome.map, hr]
      rfl
    · rw [hcall, Outcome.map, hd]
  · refine of_notify hu (hid ▸ hT) ?_ (a := .done) ?_ ?_ (hw T hTd) hc
    · rw [hcall, Outcome.map]
      exact hs
    · rw [hcall, Outcome.map, hr]
      rfl
    · rw [hcall, Outcome.map, hd]

end Spread

namespace Coherent

theorem spread_remove (h : Coherent t) (x : NodeId) (hu : Coherent (t.call (.remove x)).tree)
    (hsingle : ∀ w ∈ (t.call (.remove x)).tree.watches, w.subject = .context →
      ∃ c, w.contexts = [c]) : Spread t (.remove x) := by
  obtain hr | ⟨hx, hr, -⟩ := t.remove_cases x
  · exact .of_noNode (by rw [Tree.call, hr])
  · obtain ⟨ids, htells, hp, hids⟩ := tells_remove h hx
    have hres : (t.call (.remove x)).result = .ok .done := by
      rw [Tree.call, Outcome.map, hr]
      rfl
    exact .of_removal hsingle hu.indexed hres htells hp hids rfl

theorem spread_setAt (x : NodeId) (c : String) (path : Path) (value : Value)
    (hu : Coherent (t.call (.setAt x c path value)).tree) : Spread t (.setAt x c path value) := by
  obtain ⟨⟨e, hr⟩, -, hd⟩ | ⟨owner, ho, hr, hs, hd⟩ := t.setAt_cases x c path value
  · exact .of_error (e := e) (by rw [Tree.call, Outcome.map, hr]; rfl) hd
  · have hT := Tree.proper_of_owner? ho
    have htree : (t.call (.setAt x c path value)).tree =
      t.write ⟨owner, c⟩ (·.set path value) := hs
    refine .of_notify hu (T := ⟨owner, c⟩) ?_ ?_ (a := .done) ?_ ?_ ?_ fun _ => Iff.rfl
    · rw [htree]
      exact (Tree.globalId_modifySlot ..).symm ▸ hT
    · rw [htree]
      exact isSome_slot?_write hT (Tree.slot?_of_owner? ho) _
    · rw [Tree.call, Outcome.map, hr]
      rfl
    · rw [htree]
      exact hd
    · rw [Call.written, ho, Option.map_some]

/-- A context set at an implicit scope, which may be there or be new. -/
theorem spread_setImplicit (h : Coherent t) (m : NodeId) (c : String) (value : Value)
    (hu : Coherent (t.call (.setImplicit m c value)).tree)
    (hlt : (t.call (.setImplicit m c value)).tree.nodes.cells.length < UInt32.size) :
    Spread t (.setImplicit m c value) := by
  -- the call sets the context in a tree `s` where the implicit scope of the node is `i`
  have hset : ∀ (s : Tree) (i : NodeId), s.globalId = t.globalId →
      t.setImplicit m c value = s.set i c value →
      scopeOf (s.set i c value).tree.nodes m = some i → Spread t (.setImplicit m c value) := by
    intro s i hid hs hlink
    have hcall : t.call (.setImplicit m c value) = (s.set i c value).map fun _ => .done := by
      rw [Tree.call, hs]
    refine .set hu ?_ hcall (fun T hT => ?_) fun _ => Iff.rfl
    · rw [hcall]
      exact (s.globalId_set i c value).symm
    · rw [hT, hid, Call.written, hcall]
      simp only [Outcome.map, hlink, Option.map_some]
      split <;> rfl
  obtain hs | ⟨i, hi, -, hs⟩ | ⟨hm, -, hs⟩ := t.setImplicit_cases m c value
  · exact .of_noNode (by rw [Tree.call, hs])
  · exact hset t i rfl hs (((sameLinks_set t i c value).scope m).trans hi)
  · refine hset (t.addScope m (parentOf t.nodes m)) _ rfl hs (((sameLinks_set ..).scope m).trans ?_)
    rw [Tree.call, hs] at hlt
    have hlt' := (grows_set (t.addScope m (parentOf t.nodes m)) ..).cells_lt hlt
    exact (scopeOf_addScope h.sound hm hlt' m).trans (if_pos rfl)

theorem spread_clearImplicit (h : Coherent t) (m : NodeId)
    (hu : Coherent (t.call (.clearImplicit m)).tree)
    (hsingle : ∀ w ∈ (t.call (.clearImplicit m)).tree.watches, w.subject = .context →
      ∃ c, w.contexts = [c]) : Spread t (.clearImplicit m) := by
  have hcon : ∀ y, (t.dropScope m).contains y = t.contains y := contains_dropScope t m
  obtain hc | ⟨i, -, hlive, hc⟩ | ⟨-, -, hc⟩ := t.clearImplicit_cases m
  · exact .of_noNode (by rw [Tree.call, hc])
  · have hi : (t.dropScope m).contains i = true := (hcon i).trans hlive
    have hcall : t.call (.clearImplicit m) = ((t.dropScope m).remove i).map fun _ => .done := by
      rw [Tree.call, hc]
    obtain ⟨ids, htells, hp, hids⟩ := tells_remove (h.dropScope m) hi
    have hres : (t.call (.clearImplicit m)).result = .ok .done := by
      rw [hcall, Tree.remove_of_contains hi]
      rfl
    refine .of_removal hsingle hu.indexed hres ?_ hp (fun id => ?_) rfl
    · rw [hcall]
      exact htells
    · rw [hids id, Call.Concerns, hcall]
      simp only [hcon]
      exact Iff.rfl
  · refine .of_nobody (fun a id ha => ?_) (by rw [Tree.call, hc]; rfl)
    obtain ⟨-, T, -, y, -, hy, hgone⟩ := ha
    refine hgone ?_
    rw [Tree.call, hc]
    exact (hcon y).trans hy

/-- A new observer is told at once. -/
theorem spread_observe (x : NodeId) (e : Expr) (hu : Coherent (t.call (.observe x e)).tree) :
    Spread t (.observe x e) := by
  obtain ho | ⟨-, hr, hs, hd⟩ := t.observe_cases x e
  · exact .of_noNode (by rw [Tree.call, ho])
  · have htree : (t.call (.observe x e)).tree =
      t.register x (contextsOf e) (.expression e) := hs
    have hdel : (t.call (.observe x e)).trace.deliveries =
      [⟨t.nextObserver, (t.eval x e).value⟩] := hd
    have hres : (t.call (.observe x e)).result = .ok (.observer t.nextObserver) := by
      rw [Tree.call, Outcome.map, hr]
      rfl
    refine ⟨?_, fun id => ?_, fun d hmem => ?_⟩
    · rw [hdel]
      exact List.pairwise_singleton ..
    · rw [hdel, hres]
      simp [Call.Concerns, eq_comm]
    · rw [hdel, List.mem_singleton] at hmem
      subst hmem
      refine ⟨⟨t.nextObserver, x, contextsOf e, t.resolve x (contextsOf e), .expression e⟩, ?_, ?_⟩
      · refine hu.indexed.watch?_eq_some_iff.mpr ⟨?_, rfl⟩
        rw [htree, t.watches_register]
        exact List.mem_append_right _ (List.mem_singleton_self _)
      · rw [htree]
        exact congrArg Evaluated.value ((alike_register ..).eval x e).symm

/-- **A call tells whom it has to.** -/
theorem spread_call (h : Coherent t) (c : Call) (hu : Coherent (t.call c).tree)
    (hlt : (t.call c).tree.nodes.cells.length < UInt32.size)
    (hsingle : ∀ w ∈ (t.call c).tree.watches, w.subject = .context → ∃ x, w.contexts = [x]) :
    Spread t c := by
  cases c with
  | addRoot => exact .of_unwritten rfl (fun _ _ ha => ha) rfl
  | addChild p =>
    refine .of_unwritten rfl (fun _ _ ha => ha) ?_
    obtain ha | ⟨-, ha⟩ := t.addChild_cases p <;> rw [Tree.call, ha] <;> rfl
  | remove x => exact h.spread_remove x hu hsingle
  | set x c value =>
    exact .set hu (t.globalId_set x c value).symm rfl (fun T hT => congrArg some hT.symm)
      fun _ => Iff.rfl
  | setAt x c path value => exact spread_setAt x c path value hu
  | setImplicit m c value => exact h.spread_setImplicit m c value hu hlt
  | clearImplicit m => exact h.spread_clearImplicit m hu hsingle
  | observe x e => exact spread_observe x e hu
  | observeContext x c =>
    refine .of_unwritten rfl (fun _ _ ha => ha) ?_
    obtain ⟨e, ends, ho⟩ | ⟨-, -, ho⟩ := t.observeContext_cases x c <;> rw [Tree.call, ho] <;> rfl
  | unsubscribe id => exact .of_unwritten rfl (fun _ _ ha => ha) rfl

end Coherent

/-! ## Runs -/

/-- The call tells exactly those whom it has to, each once and in the order of registration, and
what it has to. -/
structure FanOut (log : List Exchange) (t : Tree) (c : Call) : Prop where
  ordered : ((t.call c).trace.deliveries.map (·.observer)).Pairwise (· < ·)
  told : ∀ id, id ∈ (t.call c).trace.deliveries.map (·.observer) ↔
    ∃ answer, (t.call c).result = .ok answer ∧ c.Concerns t (t.call c).tree answer id
  /-- Whoever is told was made by a call, which is this one or one before. -/
  made : ∀ d ∈ (t.call c).trace.deliveries, ∃ x ∈ log ++ [t.exchange c],
    x.result = .ok (.observer d.observer)
  /-- It is told what that call asked for. -/
  news : ∀ d ∈ (t.call c).trace.deliveries, ∀ x ∈ log ++ [t.exchange c],
    x.result = .ok (.observer d.observer) → c.Informs t (t.call c).tree d x.call

theorem Spread.toFanOut {log : List Exchange} {c : Call} (h : Spread t c)
    (hb : Booked (log ++ [t.exchange c]) (t.call c).tree) (hu : Indexed (t.call c).tree) :
    FanOut log t c where
  ordered := h.ordered
  told := h.told
  made d hd := by
    obtain ⟨w, hwatch, -⟩ := h.news d hd
    obtain ⟨hw, hid⟩ := hu.watch?_eq_some_iff.mp hwatch
    exact hid ▸ hb.maker w hw
  news d hd _ hx hr := (h.news d hd).informs hb hu hx hr

/-- **Exact fan-out**: after any run a call of any kind tells exactly those whom it has to, each
once, in the order of registration, and what it has to. -/
theorem Run.fanOut {log : List Exchange} {globalId : String} {value : Value} {registry : Registry}
    (h : Run AnyCall (.new globalId value registry) log t) (c : Call)
    (hlt : (t.call c).tree.nodes.cells.length < UInt32.size) : FanOut log t c := by
  have hnext := Run.call c h trivial
  have ht := h.coherent ((t.grows_call c).cells_lt hlt)
  have hu := hnext.coherent hlt
  have hb := hnext.booked hlt
  exact (ht.spread_call c hu hlt fun w hw => hb.single hw).toFanOut hb hu.indexed

/-- A context set for the second time tells its observers, that of an expression and its own. -/
theorem Run.fanOut_of_set_twice :
    let r : NodeId := ⟨0, 0⟩
    let run := (Tree.new "global" .null .empty).calls
      [.addRoot, .set r "a" (.bool true), .observe r (.single (.binding ⟨"a", []⟩)),
        .observeContext r "a"]
    (run.2.call (.set r "a" .null)).tree.nodes.cells.length < UInt32.size ∧
      FanOut run.1 run.2 (.set r "a" .null) := by
  intro r run
  have hcells : (run.2.call (.set r "a" .null)).tree.nodes.cells.length = 1 := by cbv
  have hlt : (run.2.call (.set r "a" .null)).tree.nodes.cells.length < UInt32.size := by
    rw [hcells]
    decide
  exact ⟨hlt, Run.fanOut (Run.of_calls fun _ _ _ => trivial) _ hlt⟩

end DataBinding.Scope
