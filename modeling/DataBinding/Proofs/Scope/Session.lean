import DataBinding.Proofs.Scope.Undisturbed

/-!
# Observers do not disturb each other

A session is what a caller asks of a tree, one request after another: calls, questions and new
operations. Leave some of the subscriptions out, and with them whatever else names the observers
that they made. Then the other requests get the same answers, and the other observers are told the
same in the same order; only the numbers of the observers close ranks.

* `Tree.session`: a session and its log.
* `leftOut`, `remains`: what is left out of a log, and what remains of it, renumbered.
* `Thinned.session`: a session on two trees of which one is without the observers left out.
* `session_remains`: what remains of a session is the session of the requests that remain.

Out of scope: how many observers a context has. The count is the one answer that changes, because it
counts the subscriptions that were left out.
-/

namespace DataBinding.Scope

variable {gone : List ObserverId} {t u : Tree}

/-! ## Sessions -/

/-- A question about a tree, but for how many observers a context has (`Tree.observerCount`). -/
inductive Query where
  | globalValue
  | contains (node : NodeId)
  | parent (node : NodeId)
  | children (node : NodeId)
  | owner (node : NodeId) (context : String)
  | value (node : NodeId) (context : String)
  | eval (node : NodeId) (e : Expr)
  | targets (observer : ObserverId)

/-- The answer to a question. -/
inductive Finding where
  | yes (b : Bool)
  | node (id : Option NodeId)
  | nodes (ids : List NodeId)
  | owner (owner : Option Owner)
  | value (value : Option Value)
  | targets (targets : List Target)

/-- Looks at the tree. -/
def Tree.look (t : Tree) : Query → Finding
  | .globalValue => .value (some t.global.value)
  | .contains x => .yes (t.contains x)
  | .parent x => .node (t.parent? x)
  | .children x => .nodes (t.children x)
  | .owner x c => .owner (t.owner? x c)
  | .value x c => .value (t.value? x c)
  | .eval x e => .value (some (t.eval x e).value)
  | .targets id => .targets (t.targets id)

/-- What a caller may ask for. -/
inductive Request where
  | call (c : Call)
  | look (q : Query)
  | addOperation (op : Operation)

/-- What a request gives back. -/
inductive Reply where
  | result (result : Except ScopeError Answer)
  | finding (finding : Finding)
  | added (result : Except RegisterError Unit)

/-- A request that was served: what it gave back and who was told what. -/
structure Turn where
  request : Request
  reply : Reply
  deliveries : List Delivery

/-- Serves a request. -/
def Tree.serve (t : Tree) (r : Request) : Turn × Tree :=
  match r with
  | .call c => (⟨r, .result (t.call c).result, (t.call c).trace.deliveries⟩, (t.call c).tree)
  | .look q => (⟨r, .finding (t.look q), []⟩, t)
  | .addOperation op => (⟨r, .added (t.registerOperation op).1, []⟩, (t.registerOperation op).2.1)

/-- Serves requests one after another. -/
def Tree.session (t : Tree) : List Request → List Turn × Tree
  | [] => ([], t)
  | r :: rs => ((t.serve r).1 :: ((t.serve r).2.session rs).1, ((t.serve r).2.session rs).2)

/-! ## Leaving turns out -/

/-- Whether the request asks for an observer. -/
def Request.subscribes : Request → Bool
  | .call c => c.subscription.isSome
  | _ => false

/-- The observer that a request names. -/
def Request.handle? : Request → Option ObserverId
  | .call (.unsubscribe id) => some id
  | .look (.targets id) => some id
  | _ => none

/-- The observer that a turn made. -/
def Turn.made? (turn : Turn) : Option ObserverId :=
  match turn.reply with
  | .result (.ok (.observer id)) => some id
  | _ => none

/-- The request with the new number of the observer. -/
def Request.renumbered (gone : List ObserverId) : Request → Request
  | .call c => .call (c.renumbered gone)
  | .look (.targets id) => .look (.targets (Scope.renumbered gone id))
  | r => r

/-- The reply with the new number of the observer. -/
def Reply.renumbered (gone : List ObserverId) : Reply → Reply
  | .result r => .result (r.map (Answer.renumbered gone))
  | reply => reply

/-- The turn with the new numbers, and without what the observers `gone` were told. -/
def Turn.renumbered (gone : List ObserverId) (turn : Turn) : Turn where
  request := turn.request.renumbered gone
  reply := turn.reply.renumbered gone
  deliveries := turn.deliveries.filterMap (Delivery.kept? gone)

/-- The log of a session in which some requests are marked, with the marks. -/
def Tree.marked (t : Tree) (rs : List (Request × Bool)) : List (Turn × Bool) :=
  (t.session (rs.map (·.1))).1.zip (rs.map (·.2))

/-- The observers that marked turns made. -/
def leftOut (log : List (Turn × Bool)) : List ObserverId :=
  (log.filter (·.2)).filterMap (·.1.made?)

/-- Whether a turn is neither marked nor names an observer of those left out. -/
def stays (gone : List ObserverId) (turn : Turn × Bool) : Bool :=
  !turn.2 && turn.1.request.handle?.all (· ∉ gone)

/-- The log without the marked turns, and without those that name the observers `gone`. -/
def remains (gone : List ObserverId) (log : List (Turn × Bool)) : List Turn :=
  (log.filter (stays gone)).map (·.1.renumbered gone)

theorem stays_iff {turn : Turn} {out : Bool} :
    stays gone (turn, out) = true ↔
      ¬ out = true ∧ ∀ id, turn.request.handle? = some id → id ∉ gone := by
  simp only [stays, Bool.and_eq_true, Bool.not_eq_true', Bool.not_eq_true, Option.all_eq_true,
    decide_eq_true_eq]

theorem remains_cons_of_stays {m : Turn × Bool} {log : List (Turn × Bool)}
    (h : stays gone m = true) :
    remains gone (m :: log) = m.1.renumbered gone :: remains gone log := by
  rw [remains, List.filter_cons_of_pos h]
  rfl

theorem remains_cons_of_not_stays {m : Turn × Bool} {log : List (Turn × Bool)}
    (h : ¬ stays gone m = true) : remains gone (m :: log) = remains gone log := by
  rw [remains, List.filter_cons_of_neg h]
  rfl

/-! ## One turn -/

@[simp] theorem request_serve (t : Tree) (r : Request) : (t.serve r).1.request = r := by
  cases r <;> rfl

theorem Coherent.serve (h : Coherent t) (r : Request)
    (hlt : (t.serve r).2.nodes.cells.length < UInt32.size) : Coherent (t.serve r).2 := by
  cases r with
  | call c => exact h.call c hlt
  | look q => exact h
  | addOperation op => exact h.of_slot?_eq h.sound rfl rfl rfl fun _ => rfl

theorem grows_serve (t : Tree) (r : Request) : t.nodes.Grows (t.serve r).2.nodes := by
  cases r with
  | call c => exact t.grows_call c
  | look q => exact .refl _
  | addOperation op => exact .refl _

theorem grows_session (t : Tree) (rs : List Request) : t.nodes.Grows (t.session rs).2.nodes := by
  induction rs generalizing t with
  | nil => exact .refl _
  | cons r rs ih => exact (grows_serve t r).trans (ih _)

theorem Turn.made?_eq_some_iff {turn : Turn} {id : ObserverId} :
    turn.made? = some id ↔ turn.reply = .result (.ok (.observer id)) := by
  unfold made?
  split
  · rename_i j hj
    simp [hj]
  · rename_i hne
    simp only [reduceCtorEq, false_iff]
    exact fun h => hne id h

theorem made?_call {c : Call} {id : ObserverId} :
    (t.serve (.call c)).1.made? = some id ↔ (t.call c).result = .ok (.observer id) := by
  rw [Turn.made?_eq_some_iff]
  simp [Tree.serve]

theorem length_session (t : Tree) (rs : List Request) : (t.session rs).1.length = rs.length := by
  induction rs generalizing t with
  | nil => rfl
  | cons r rs ih => rw [Tree.session, List.length_cons, List.length_cons, ih]

/-- An observer that a turn made has the next number. -/
theorem made?_serve (h : Coherent t) (r : Request)
    (hlt : (t.serve r).2.nodes.cells.length < UInt32.size) :
    (t.serve r).1.made? = none ∧ (t.serve r).2.registered = t.registered ∨
      (t.serve r).1.made? = some t.nextObserver ∧
        (t.serve r).2.registered = t.nextObserver := by
  cases r with
  | call c =>
    rcases Tree.watches_call h c hlt with ⟨hr, hnone⟩ | ⟨hr, hone⟩
    · refine Or.inl ⟨Option.eq_none_iff_forall_ne_some.mpr fun id hid => ?_, hnone.1⟩
      exact hr id (made?_call.mp hid)
    · exact Or.inr ⟨made?_call.mpr hr, hone.registered⟩
  | look q => exact Or.inl ⟨rfl, rfl⟩
  | addOperation op => exact Or.inl ⟨rfl, rfl⟩

/-- The observers that a session made are numbered in order, after those from before it. -/
theorem made?_session (h : Coherent t) (rs : List Request)
    (hlt : (t.session rs).2.nodes.cells.length < UInt32.size) :
    ((t.session rs).1.filterMap Turn.made?).Pairwise (· < ·) ∧
      ∀ id ∈ (t.session rs).1.filterMap Turn.made?, t.registered < id := by
  induction rs generalizing t with
  | nil => exact ⟨List.Pairwise.nil, nofun⟩
  | cons r rs ih =>
    have hlt' := (grows_session _ rs).cells_lt hlt
    obtain ⟨hp, hall⟩ := ih (h.serve r hlt') hlt
    rw [Tree.session, List.filterMap_cons]
    obtain ⟨hm, hreg⟩ | ⟨hm, hreg⟩ := made?_serve h r hlt' <;> simp only [hm] <;> rw [hreg] at hall
    · exact ⟨hp, hall⟩
    · refine ⟨List.pairwise_cons.mpr ⟨hall, hp⟩, fun id hid => ?_⟩
      rcases List.mem_cons.mp hid with rfl | hid
      · exact Nat.lt_succ_self _
      · exact Nat.lt_of_succ_lt (hall id hid)

namespace Thinned

/-- A question that names no observer left out has the same answer. -/
theorem look (h : Thinned gone t u) {q : Query}
    (hq : ∀ id, q = .targets id → id ∉ gone) :
    (u.serve ((Request.look q).renumbered gone)).1 =
      (t.serve (.look q)).1.renumbered gone := by
  have hvalue : u.global.value = t.global.value :=
    (congrArg (·.global.value) h.alike.unwatched_eq :
      u.unwatched.global.value = t.unwatched.global.value)
  cases q with
  | targets id =>
    have hkept := kept?_eq_some_iff.mpr ⟨hq id rfl, rfl⟩
    simp only [Request.renumbered, Tree.serve, Turn.renumbered, Reply.renumbered, Tree.look,
      h.targets hkept, List.filterMap_nil]
  | _ =>
    simp only [Request.renumbered, Tree.serve, Turn.renumbered, Reply.renumbered, Tree.look,
      hvalue, h.alike.contains, h.alike.parent?, h.alike.children, h.alike.owner?, h.alike.value?,
      h.alike.eval, List.filterMap_nil]

theorem addOperation (h : Thinned gone t u) (op : Operation) :
    (u.registerOperation op).1 = (t.registerOperation op).1 ∧
      Thinned gone (t.registerOperation op).2.1 (u.registerOperation op).2.1 := by
  unfold Tree.registerOperation
  rw [h.alike.registry]
  refine ⟨rfl, h.congr ?_ rfl rfl rfl rfl⟩
  exact congrArg (fun s => { s with registry := (t.registry.register op).registry })
    h.alike.unwatched_eq

/-- **A turn that stays.** -/
theorem serve (h : Thinned gone t u) (ht : Coherent t) (hu : Coherent u) (r : Request)
    (hlt : (t.serve r).2.nodes.cells.length < UInt32.size)
    (hmade : ∀ id, (t.serve r).1.made? = some id → id ∉ gone)
    (hhandle : ∀ id, r.handle? = some id → id ∉ gone) :
    (u.serve (r.renumbered gone)).1 = (t.serve r).1.renumbered gone ∧
      Thinned gone (t.serve r).2 (u.serve (r.renumbered gone)).2 := by
  cases r with
  | call c =>
    have hcall := h.call ht hu c hlt (fun id hid => hmade id (made?_call.mpr hid)) fun id hid =>
      hhandle id (by rw [hid]; rfl)
    refine ⟨?_, hcall.tree⟩
    simp only [Tree.serve, Request.renumbered, Turn.renumbered, Reply.renumbered, hcall.result,
      hcall.deliveries]
    rfl
  | look q =>
    exact ⟨h.look fun id hid => hhandle id (by rw [hid]; rfl), by cases q <;> exact h⟩
  | addOperation op =>
    obtain ⟨hr, htree⟩ := h.addOperation op
    refine ⟨?_, htree⟩
    simp only [Tree.serve, Request.renumbered, Turn.renumbered, Reply.renumbered, hr,
      List.filterMap_nil]

/-- A turn that is left out with the observer that it makes. -/
theorem serve_marked (h : Thinned gone t u) {r : Request} (hr : r.subscribes = true)
    (hmade : ∀ id, (t.serve r).1.made? = some id → id ∈ gone) :
    Thinned gone (t.serve r).2 u ∧
      (t.serve r).1.deliveries.filterMap (Delivery.kept? gone) = [] := by
  cases r with
  | call c => exact h.subscription_gone hr fun id hid => hmade id (made?_call.mpr hid)
  | _ => cases hr

/-- A turn that is left out with the observer that it names. -/
theorem serve_handle (h : Thinned gone t u) {r : Request} {id : ObserverId}
    (hr : r.handle? = some id) (hid : id ∈ gone) :
    Thinned gone (t.serve r).2 u ∧ (t.serve r).1.deliveries = [] := by
  unfold Request.handle? at hr
  split at hr
  · obtain rfl := Option.some.inj hr
    exact ⟨h.unsubscribe_gone hid, rfl⟩
  · exact ⟨h, rfl⟩
  · cases hr

/-- A turn that is left out, for either reason. -/
theorem serve_gone (h : Thinned gone t u) {r : Request} {out : Bool}
    (hmark : out = true → r.subscribes = true)
    (hmade : ∀ id, (t.serve r).1.made? = some id → (id ∈ gone ↔ out = true))
    (hout : ¬ stays gone ((t.serve r).1, out) = true) :
    Thinned gone (t.serve r).2 u ∧
      (t.serve r).1.deliveries.filterMap (Delivery.kept? gone) = [] := by
  cases out with
  | true => exact h.serve_marked (hmark rfl) fun id hid => (hmade id hid).mpr rfl
  | false =>
    rw [stays, request_serve, Bool.not_false, Bool.true_and, Option.all_eq_true] at hout
    simp only [decide_eq_true_eq, not_forall, not_not] at hout
    obtain ⟨id, hid, hgone⟩ := hout
    obtain ⟨htree, hd⟩ := h.serve_handle hid hgone
    exact ⟨htree, by rw [hd, List.filterMap_nil]⟩

/-! ## Sessions without the observers left out -/

/-- **A session on two trees of which one is without the observers left out.** -/
theorem session (h : Thinned gone t u) (ht : Coherent t) (hu : Coherent u)
    {rs : List (Request × Bool)} (hmarks : ∀ r ∈ rs, r.2 = true → r.1.subscribes = true)
    (hlt : (t.session (rs.map (·.1))).2.nodes.cells.length < UInt32.size)
    (hfit : ∀ m ∈ t.marked rs, ∀ id, m.1.made? = some id → (id ∈ gone ↔ m.2 = true)) :
    (u.session ((remains gone (t.marked rs)).map (·.request))).1 = remains gone (t.marked rs) ∧
      (remains gone (t.marked rs)).flatMap (·.deliveries) =
        ((t.session (rs.map (·.1))).1.flatMap (·.deliveries)).filterMap
          (Delivery.kept? gone) := by
  induction rs generalizing t u with
  | nil => exact ⟨rfl, rfl⟩
  | cons r rs ih =>
    obtain ⟨r, out⟩ := r
    have hlt' := (grows_session _ (rs.map (·.1))).cells_lt hlt
    have hcons : t.marked ((r, out) :: rs) =
        ((t.serve r).1, out) :: (t.serve r).2.marked rs := rfl
    rw [hcons] at hfit ⊢
    have hself := hfit _ List.mem_cons_self
    have hmarks' : ∀ r ∈ rs, r.2 = true → r.1.subscribes = true :=
      fun r hr => hmarks r (List.mem_cons_of_mem _ hr)
    have hfit' : ∀ m ∈ (t.serve r).2.marked rs, ∀ id, m.1.made? = some id →
        (id ∈ gone ↔ m.2 = true) := fun m hm => hfit m (List.mem_cons_of_mem _ hm)
    by_cases hstays : stays gone ((t.serve r).1, out) = true
    · obtain ⟨hout, hhandle⟩ := stays_iff.mp hstays
      rw [request_serve] at hhandle
      obtain ⟨hturn, htree⟩ := h.serve ht hu r hlt'
        (fun id hid hgone => hout ((hself id hid).mp hgone)) hhandle
      have hu' := hu.serve (r.renumbered gone) (htree.alike.symm.grows.cells_lt hlt')
      obtain ⟨hlog, htold⟩ := ih htree (ht.serve r hlt') hu' hmarks' hlt hfit'
      rw [remains_cons_of_stays hstays]
      constructor
      · have hreq : ((t.serve r).1.renumbered gone).request = r.renumbered gone := by
          rw [Turn.renumbered, request_serve]
        rw [List.map_cons, hreq, Tree.session, hturn, hlog]
      · rw [List.flatMap_cons, htold, List.map_cons, Tree.session, List.flatMap_cons,
          List.filterMap_append]
        rfl
    · obtain ⟨htree, htold'⟩ := h.serve_gone (hmarks _ List.mem_cons_self) hself hstays
      obtain ⟨hlog, htold⟩ := ih htree (ht.serve r hlt') hu hmarks' hlt hfit'
      rw [remains_cons_of_not_stays hstays]
      refine ⟨hlog, ?_⟩
      rw [htold, List.map_cons, Tree.session, List.flatMap_cons, List.filterMap_append, htold',
        List.nil_append]

end Thinned

/-! ## What is left out -/

/-- In a log that gives out no number twice, the observers left out are those of marked turns. -/
theorem mem_leftOut_iff {log : List (Turn × Bool)}
    (hlog : ((log.map (·.1)).filterMap Turn.made?).Nodup) {m : Turn × Bool} (hm : m ∈ log)
    {id : ObserverId} (hid : m.1.made? = some id) : id ∈ leftOut log ↔ m.2 = true := by
  have hmem : id ∈ leftOut log ↔ ∃ m' ∈ log, m'.2 = true ∧ m'.1.made? = some id := by
    simp only [leftOut, List.mem_filterMap, List.mem_filter, and_assoc]
  rw [List.filterMap_map, List.Nodup, List.pairwise_filterMap] at hlog
  -- two turns that made the observer would be one turn, so they have the same mark
  have hsame : ∀ x ∈ log, ∀ y ∈ log, x.1.made? = some id → y.1.made? = some id → x.2 = y.2 :=
    fun x hx y hy => List.Pairwise.forall_of_forall_of_flip
      (R := fun x y : Turn × Bool => x.1.made? = some id → y.1.made? = some id → x.2 = y.2)
      (fun _ _ _ _ => rfl) (hlog.imp fun h hx hy => absurd rfl (h id hx id hy))
      (hlog.imp fun h hy hx => absurd rfl (h id hx id hy)) hx hy
  rw [hmem]
  constructor
  · rintro ⟨m', hm', hout, hid'⟩
    rw [hsame m hm m' hm' hid hid', hout]
  · exact fun hout => ⟨m, hm, hout, hid⟩

/-- **Observers do not disturb each other.** A session in which some subscriptions are marked, and
the session without them and without what names their observers: the requests that remain have the
same replies but for the numbers of the observers, which keep their order, and the other observers
are told the same in the same order. -/
theorem session_remains {globalId : String} {value : Value} {registry : Registry}
    {rs : List (Request × Bool)} (hmarks : ∀ r ∈ rs, r.2 = true → r.1.subscribes = true)
    (hlt : ((Tree.new globalId value registry).session (rs.map (·.1))).2.nodes.cells.length <
      UInt32.size) :
    let start := Tree.new globalId value registry
    let gone := leftOut (start.marked rs)
    let rest := remains gone (start.marked rs)
    (start.session (rest.map (·.request))).1 = rest ∧
      rest.flatMap (·.deliveries) =
        ((start.session (rs.map (·.1))).1.flatMap (·.deliveries)).filterMap
          (Delivery.kept? gone) ∧
      ∀ i j, i < j → j ∉ gone → renumbered gone i < renumbered gone j := by
  intro start gone rest
  have hcoh := coherent_new globalId value registry
  have hsame : Thinned gone start start := ⟨.refl _, rfl, rfl⟩
  have hfst : (start.marked rs).map (·.1) = (start.session (rs.map (·.1))).1 :=
    List.map_fst_zip (by rw [length_session, List.length_map, List.length_map])
  have hfit : ∀ m ∈ start.marked rs, ∀ id, m.1.made? = some id → (id ∈ gone ↔ m.2 = true) := by
    intro m hm id hid
    refine mem_leftOut_iff ?_ hm hid
    rw [hfst]
    exact (made?_session hcoh _ hlt).1.imp Nat.ne_of_lt
  obtain ⟨hlog, htold⟩ := hsame.session hcoh hcoh hmarks hlt hfit
  exact ⟨hlog, htold, fun i j hij hj => renumbered_lt_renumbered hij hj⟩

/-- A session with two observers of one context, the first of which is marked. -/
def firstMarked : List (Request × Bool) :=
  [(.call .addRoot, false), (.call (.set ⟨0, 0⟩ "a" (.int 1)), false),
    (.call (.observeContext ⟨0, 0⟩ "a"), true), (.call (.observeContext ⟨0, 0⟩ "a"), false),
    (.call (.set ⟨0, 0⟩ "a" (.int 2)), false), (.look (.targets 1), false),
    (.call (.unsubscribe 1), false), (.look (.targets 2), false), (.call (.remove ⟨0, 0⟩), false)]

theorem session_remains_of_firstMarked :
    let start := Tree.new "global" .null .empty
    (∀ r ∈ firstMarked, r.2 = true → r.1.subscribes = true) ∧
      (start.session (firstMarked.map (·.1))).2.nodes.cells.length < UInt32.size ∧
      leftOut (start.marked firstMarked) = [1] ∧
      (start.session ((remains [1] (start.marked firstMarked)).map (·.request))).1 =
        remains [1] (start.marked firstMarked) := by
  have hmarks : ∀ r ∈ firstMarked, r.2 = true → r.1.subscribes = true := by decide
  have hlt : ((Tree.new "global" .null .empty).session
      (firstMarked.map (·.1))).2.nodes.cells.length < UInt32.size := by cbv
  have hgone : leftOut ((Tree.new "global" .null .empty).marked firstMarked) = [1] := by cbv
  refine ⟨hmarks, hlt, hgone, ?_⟩
  rw [← hgone]
  exact (session_remains hmarks hlt).1

end DataBinding.Scope
