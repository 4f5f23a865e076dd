import DataBinding.Proofs.Scope.FanOut
import DataBinding.Proofs.Scope.Fresh

/-!
# Observers that are gone

An observer goes when it is unsubscribed, or when the node goes from which it looks; nothing else
takes it away. Once it is gone nothing tells it any more, the call that took it away included, and
its number is not given out again.

* `Tree.requests_call`: the observers after a call are those of nodes that are still there, but for
  the one unsubscribed, and the one that the call made.
* `Run.observes_iff`: the observers after a run.
* `Run.ended`: an observer that is gone, for ever.
* `Run.observers_end`: both.
-/

namespace DataBinding.Scope

variable {t u : Tree}

/-! ## What the observers were asked for -/

/-- The observer without what it found: what the call asked for that made it. -/
def Watch.request (w : Watch) : Watch :=
  { w with targets := [] }

/-- What the observers were asked for, by number. -/
def Tree.requests (t : Tree) : List Watch :=
  t.watches.map Watch.request

/-- Every observer looks from a node that is there. -/
def Seated (t : Tree) : Prop :=
  ∀ w ∈ t.watches, t.contains w.subscriber = true

theorem seated_iff : Seated t ↔ ∀ w ∈ t.requests, t.contains w.subscriber = true := by
  simp only [Tree.requests, List.forall_mem_map]
  exact Iff.rfl

theorem requests_rebindWhere (h : Indexed t) (affected : Watch → Bool) :
    (t.rebindWhere affected).1.requests = t.requests := by
  rw [Tree.requests, h.watches_rebindWhere, List.map_map]
  refine List.map_congr_left fun w _ => ?_
  simp only [Function.comp_apply]
  split <;> rfl

/-- Observers went with their nodes and in no other way, and none came. -/
def Survive (t u : Tree) : Prop :=
  u.requests = t.requests.filter (u.contains ·.subscriber)

/-- No node went that an observer looks from. -/
theorem survive_of_eq (hseat : Seated t) (hws : u.watches = t.watches)
    (hlive : ∀ x, t.contains x = true → u.contains x = true) : Survive t u := by
  have hreq : u.requests = t.requests := congrArg (List.map Watch.request) hws
  rw [Survive, hreq]
  exact (List.filter_eq_self.mpr fun w hw => hlive _ (seated_iff.mp hseat w hw)).symm

theorem Survive.rebindWhere (h : Survive t u) (hu : Indexed u) (affected : Watch → Bool) :
    Survive t (u.rebindWhere affected).1 := by
  rw [Survive, requests_rebindWhere hu, h]
  exact List.filter_congr fun w _ => ((alike_rebindWhere u affected).contains _).symm

theorem survive_remove (h : Coherent t) (hseat : Seated t) (x : NodeId) :
    Survive t (t.remove x).tree := by
  obtain hr | ⟨hx, -, hr⟩ := t.remove_cases x
  · rw [hr]
    exact survive_of_eq hseat rfl fun _ hy => hy
  · have hgone : ∀ w ∈ t.watches, (w.subscriber ∉ t.removed x ↔
        (t.remove x).tree.contains w.subscriber = true) := fun w hw =>
      ⟨fun hy => (contains_remove hx).mpr ⟨hy, hseat w hw⟩, fun hy => ((contains_remove hx).mp hy).1⟩
    have hwithout : (t.without x).requests =
        t.requests.filter ((t.remove x).tree.contains ·.subscriber) := by
      rw [Tree.requests, t.watches_without, Tree.requests, List.filter_map]
      refine congrArg _ (List.filter_congr fun w hw => ?_)
      rw [Bool.eq_iff_iff, decide_eq_true_iff]
      exact hgone w hw
    rw [Survive, ← hwithout, hr]
    exact requests_rebindWhere (h.indexed_without x) _

theorem survive_set (h : Coherent t) (hseat : Seated t) (x : NodeId) (c : String)
    (value : Value) : Survive t (t.set x c value).tree := by
  obtain hs | ⟨T, -, -, -, -, hs⟩ | ⟨-, -, hgone, hs⟩ := t.set_cases x c value <;> rw [hs]
  · exact survive_of_eq hseat rfl fun _ hy => hy
  · exact survive_of_eq hseat (Tree.watches_modifySlot ..)
      fun y hy => ((sameLinks_write t T _).contains y).trans hy
  · have hnew : Survive t (t.addContext x c value) := survive_of_eq hseat rfl fun y hy =>
      ((sameLinks_addContext t x c value).contains y).trans hy
    exact hnew.rebindWhere (h.addContext hgone value).indexed _

theorem survive_setImplicit (h : Coherent t) (hseat : Seated t) (m : NodeId) (c : String)
    (value : Value) (hlt : (t.setImplicit m c value).tree.nodes.cells.length < UInt32.size) :
    Survive t (t.setImplicit m c value).tree := by
  obtain hs | ⟨i, -, -, hs⟩ | ⟨-, -, hs⟩ := t.setImplicit_cases m c value <;> rw [hs] at hlt ⊢
  · exact survive_of_eq hseat rfl fun _ hy => hy
  · exact survive_set h hseat i c value
  · have hlt' := (grows_set ..).cells_lt hlt
    have hseat' : Seated (t.addScope m (parentOf t.nodes m)) := fun w hw =>
      (contains_addScope h.sound hlt').mpr (Or.inr (hseat w hw))
    exact survive_set (h.addScope m hlt') hseat' ..

theorem survive_clearImplicit (h : Coherent t) (hseat : Seated t) (m : NodeId) :
    Survive t (t.clearImplicit m).tree := by
  have hcon := contains_dropScope t m
  obtain hc | ⟨i, -, -, hc⟩ | ⟨-, -, hc⟩ := t.clearImplicit_cases m <;> rw [hc]
  · exact survive_of_eq hseat rfl fun _ hy => hy
  · exact survive_remove (h.dropScope m) (fun w hw => (hcon _).trans (hseat w hw)) i
  · exact survive_of_eq hseat rfl fun y hy => (hcon y).trans hy

/-! ## One call -/

/-- A call that neither makes observers nor unsubscribes one. -/
theorem survive_call (h : Coherent t) (hseat : Seated t) {c : Call} (hmakes : ∀ w, ¬ c.Makes w)
    (hc : ∀ id, c ≠ .unsubscribe id)
    (hlt : (t.call c).tree.nodes.cells.length < UInt32.size) : Survive t (t.call c).tree := by
  cases c with
  | addRoot =>
    exact survive_of_eq hseat rfl fun y hy => (contains_addNode h.sound hlt).mpr (Or.inr hy)
  | addChild p =>
    obtain ha | ⟨-, ha⟩ := t.addChild_cases p <;> rw [Tree.call, ha] at hlt ⊢
    · exact survive_of_eq hseat rfl fun _ hy => hy
    · exact survive_of_eq hseat rfl fun y hy => (contains_addLeaf h.sound hlt).mpr (Or.inr hy)
  | remove x => exact survive_remove h hseat x
  | set x c value => exact survive_set h hseat x c value
  | setAt x c path value =>
    obtain ⟨-, hs, -⟩ | ⟨owner, -, -, hs, -⟩ := t.setAt_cases x c path value <;>
      simp only [Tree.call, Outcome.map, hs]
    · exact survive_of_eq hseat rfl fun _ hy => hy
    · exact survive_of_eq hseat (Tree.watches_modifySlot ..)
        fun y hy => ((sameLinks_write t _ _).contains y).trans hy
  | setImplicit m c value => exact survive_setImplicit h hseat m c value hlt
  | clearImplicit m => exact survive_clearImplicit h hseat m
  | observe x e => exact absurd ⟨rfl, rfl, rfl⟩ (hmakes ⟨0, x, contextsOf e, [], .expression e⟩)
  | observeContext x c => exact absurd ⟨rfl, rfl, rfl⟩ (hmakes ⟨0, x, [c], [], .context⟩)
  | unsubscribe id => exact absurd rfl (hc id)

/-- Whether the call unsubscribes the observer. -/
def Call.ends (id : ObserverId) : Call → Bool
  | .unsubscribe i => i == id
  | _ => false

/-- The observers that a call leaves. -/
def Tree.remaining (t : Tree) (c : Call) : List Watch :=
  t.requests.filter fun w => (t.call c).tree.contains w.subscriber && !c.ends w.id

theorem Call.ends_iff {id : ObserverId} {c : Call} : c.ends id = true ↔ c = .unsubscribe id := by
  cases c <;> simp [Call.ends]

theorem Survive.requests_eq {c : Call} (h : Survive t (t.call c).tree)
    (hc : ∀ id, c ≠ .unsubscribe id) : (t.call c).tree.requests = t.remaining c := by
  have hends : ∀ id, c.ends id = false := fun id =>
    Bool.eq_false_iff.mpr fun he => hc id (Call.ends_iff.mp he)
  rw [h]
  exact List.filter_congr fun w _ => by simp [hends]

/-- A call that is refused leaves every observer. -/
theorem requests_refused (hseat : Seated t) {c : Call} (ht : (t.call c).tree = t)
    (hc : ∀ id, c ≠ .unsubscribe id) : (t.call c).tree.requests = t.remaining c := by
  have hs : Survive t (t.call c).tree := by
    rw [ht]
    exact survive_of_eq hseat rfl fun _ hy => hy
  exact hs.requests_eq hc

/-- A call that registers an observer leaves every other one. -/
theorem requests_register (hseat : Seated t) {c : Call} {x : NodeId} {cs : List String}
    {subject : Subject} (hx : t.contains x = true) (hc : c.subscription = some (x, cs))
    (hr : (t.call c).result = .ok (.observer t.nextObserver))
    (ht : (t.call c).tree = t.register x cs subject) :
    ∃ w, (t.call c).tree.requests = t.remaining c ++ [w] ∧
      (t.call c).tree.contains w.subscriber = true ∧
      (t.call c).result = .ok (.observer w.id) ∧
      c.subscription = some (w.subscriber, w.contexts) := by
  have hlive : ∀ y, t.contains y = true → (t.call c).tree.contains y = true := fun y hy => by
    rw [ht]
    exact ((alike_register t x cs subject).contains y).trans hy
  have hends : ∀ id, c.ends id = false := fun id => by
    cases c <;> first | rfl | cases hc
  have hold : t.remaining c = t.requests := List.filter_eq_self.mpr fun w hw => by
    rw [hlive _ (seated_iff.mp hseat w hw), hends]
    rfl
  refine ⟨⟨t.nextObserver, x, cs, [], subject⟩, ?_, hlive x hx, hr, hc⟩
  rw [hold, ht, Tree.requests, t.watches_register, List.map_append]
  rfl

theorem requests_unsubscribe (hseat : Seated t) (id : ObserverId) :
    (t.call (.unsubscribe id)).tree.requests = t.remaining (.unsubscribe id) := by
  have ht : (t.call (.unsubscribe id)).tree = t.unsubscribe id := rfl
  rw [ht, Tree.requests, t.watches_unsubscribe, Tree.remaining, Tree.requests, List.filter_map]
  refine congrArg _ (List.filter_congr fun w hw => ?_)
  have hlive : (t.unsubscribe id).contains w.subscriber = true :=
    ((alike_unsubscribe t id).contains _).trans (hseat w hw)
  simp only [Function.comp_apply, Watch.request, ht, hlive, Call.ends, Bool.true_and]
  rw [bne, Bool.beq_comm]

/-- **The observers after a call** are those that it leaves and the one that it makes. -/
theorem Tree.requests_call (h : Coherent t) (hseat : Seated t) (c : Call)
    (hlt : (t.call c).tree.nodes.cells.length < UInt32.size) :
    (t.call c).tree.requests = t.remaining c ∧
        (∀ id, (t.call c).result ≠ .ok (.observer id)) ∨
      ∃ w, (t.call c).tree.requests = t.remaining c ++ [w] ∧
        (t.call c).tree.contains w.subscriber = true ∧
        (t.call c).result = .ok (.observer w.id) ∧
        c.subscription = some (w.subscriber, w.contexts) := by
  cases c with
  | observe x e =>
    obtain ho | ⟨hx, hr, ht, -⟩ := t.observe_cases x e
    · have ht : (t.call (.observe x e)).tree = t := by
        rw [call, ho]
        rfl
      refine Or.inl ⟨requests_refused hseat ht fun _ hc => Call.noConfusion hc, fun id he => ?_⟩
      rw [call, ho] at he
      cases he
    · exact Or.inr (requests_register hseat hx rfl (congrArg (Except.map Answer.observer) hr) ht)
  | observeContext x c =>
    obtain ⟨e, ends, ho⟩ | ⟨hx, -, ho⟩ := t.observeContext_cases x c
    · have ht : (t.call (.observeContext x c)).tree = t := by
        rw [call, ho]
        rfl
      refine Or.inl ⟨requests_refused hseat ht fun _ hc => Call.noConfusion hc, fun id he => ?_⟩
      rw [call, ho] at he
      cases he
    · have ht : (t.call (.observeContext x c)).tree = t.register x [c] .context := by
        rw [call, ho]
        rfl
      refine Or.inr (requests_register hseat hx rfl ?_ ht)
      rw [call, ho]
      rfl
  | unsubscribe id => exact Or.inl ⟨requests_unsubscribe hseat id, result_call_ne t fun _ hm => hm⟩
  | _ =>
    refine Or.inl ⟨(survive_call h hseat ?_ ?_ hlt).requests_eq ?_, result_call_ne t ?_⟩
    · exact fun _ hm => hm
    · exact fun _ hc => Call.noConfusion hc
    · exact fun _ hc => Call.noConfusion hc
    · exact fun _ hm => hm

theorem Seated.call (hseat : Seated t) (h : Coherent t) (c : Call)
    (hlt : (t.call c).tree.nodes.cells.length < UInt32.size) : Seated (t.call c).tree := by
  have hremaining : ∀ w ∈ t.remaining c, (t.call c).tree.contains w.subscriber = true :=
    fun w hw => (Bool.and_eq_true _ _ ▸ (List.mem_filter.mp hw).2).1
  rw [seated_iff]
  rcases Tree.requests_call h hseat c hlt with ⟨he, -⟩ | ⟨w, he, hw, -⟩ <;> rw [he]
  · exact hremaining
  · intro v hv
    rcases List.mem_append.mp hv with hv | hv
    · exact hremaining v hv
    · rwa [List.mem_singleton.mp hv]

/-! ## What a log says of an observer -/

/-- The exchange made the observer, which looks from the node. -/
def Exchange.Makes (x : Exchange) (id : ObserverId) (n : NodeId) : Prop :=
  x.result = .ok (.observer id) ∧ ∃ cs, x.call.subscription = some (n, cs)

/-- The log made the observer, which looks from the node, and did not unsubscribe it since. -/
def Subscribed (log : List Exchange) (id : ObserverId) (n : NodeId) : Prop :=
  ∃ before x after, log = before ++ x :: after ∧ x.Makes id n ∧
    ∀ y ∈ after, y.call ≠ .unsubscribe id

/-- The observer that a call asks for looks from the node that the call names. -/
theorem Call.Makes.subscriber_eq {c : Call} {w : Watch} (hm : c.Makes w) {n : NodeId}
    {cs : List String} (hs : c.subscription = some (n, cs)) : w.subscriber = n := by
  cases c with
  | observe x e =>
    obtain ⟨rfl, -⟩ := Prod.mk.inj (Option.some.inj hs)
    exact hm.1
  | observeContext x c =>
    obtain ⟨rfl, -⟩ := Prod.mk.inj (Option.some.inj hs)
    exact hm.1
  | _ => exact hm.elim

theorem subscribed_append {log : List Exchange} {y : Exchange} {id : ObserverId} {n : NodeId} :
    Subscribed (log ++ [y]) id n ↔
      y.Makes id n ∨ Subscribed log id n ∧ y.call ≠ .unsubscribe id := by
  constructor
  · rintro ⟨before, x, after, he, hx, hafter⟩
    rcases List.eq_nil_or_concat after with rfl | ⟨after, z, rfl⟩
    · obtain ⟨-, rfl⟩ := List.append_singleton_inj.mp he
      exact Or.inl hx
    · rw [List.concat_eq_append, ← List.cons_append, ← List.append_assoc] at he
      obtain ⟨rfl, rfl⟩ := List.append_singleton_inj.mp he
      rw [List.concat_eq_append] at hafter
      exact Or.inr ⟨⟨before, x, after, rfl, hx, fun z hz => hafter z (List.mem_append_left _ hz)⟩,
        hafter y (List.mem_append_right _ (List.mem_singleton_self y))⟩
  · rintro (hy | ⟨⟨before, x, after, rfl, hx, hafter⟩, hy⟩)
    · exact ⟨log, y, [], rfl, hy, nofun⟩
    · refine ⟨before, x, after ++ [y], by rw [List.append_assoc, List.cons_append], hx, ?_⟩
      intro z hz
      rcases mem_append_singleton.mp hz with hz | rfl
      · exact hafter z hz
      · exact hy

theorem Subscribed.made {log : List Exchange} {id : ObserverId} {n : NodeId}
    (h : Subscribed log id n) : ∃ x ∈ log, x.Makes id n := by
  obtain ⟨before, x, after, rfl, hx, -⟩ := h
  exact ⟨x, List.mem_append_right _ List.mem_cons_self, hx⟩

/-- There is an observer of the number that looks from the node. -/
def Tree.Observes (t : Tree) (id : ObserverId) (n : NodeId) : Prop :=
  ∃ w, t.watch? id = some w ∧ w.subscriber = n

theorem Indexed.observes_iff (h : Indexed t) {id : ObserverId} {n : NodeId} :
    t.Observes id n ↔ ∃ w ∈ t.requests, w.id = id ∧ w.subscriber = n := by
  simp only [Tree.Observes, h.watch?_eq_some_iff, Tree.requests, List.mem_map, exists_exists_and_eq_and,
    and_assoc]
  exact Iff.rfl

theorem Tree.contains_of_makes (h : Coherent t) (hseat : Seated t) (c : Call)
    (hlt : (t.call c).tree.nodes.cells.length < UInt32.size) {id : ObserverId} {n : NodeId}
    (hm : (t.exchange c).Makes id n) : (t.call c).tree.contains n = true := by
  obtain ⟨hr, cs, hs⟩ := hm
  rcases Tree.requests_call h hseat c hlt with ⟨-, hnone⟩ | ⟨w, -, hlive, -, hw⟩
  · exact absurd hr (hnone id)
  · obtain ⟨rfl, -⟩ := Prod.mk.inj (Option.some.inj (hw.symm.trans hs))
    exact hlive

theorem Tree.observes_call (h : Coherent t) (hseat : Seated t) (c : Call)
    (hlt : (t.call c).tree.nodes.cells.length < UInt32.size) {id : ObserverId} {n : NodeId} :
    (t.call c).tree.Observes id n ↔ (t.exchange c).Makes id n ∨
      t.Observes id n ∧ c ≠ .unsubscribe id ∧ (t.call c).tree.contains n = true := by
  have hold : (∃ w ∈ t.remaining c, w.id = id ∧ w.subscriber = n) ↔
      t.Observes id n ∧ c ≠ .unsubscribe id ∧ (t.call c).tree.contains n = true := by
    rw [h.indexed.observes_iff]
    simp only [Tree.remaining, List.mem_filter, Bool.and_eq_true, Bool.not_eq_true',
      ← Bool.not_eq_true, Call.ends_iff]
    constructor
    · rintro ⟨w, ⟨hw, hlive, hc⟩, rfl, rfl⟩
      exact ⟨⟨w, hw, rfl, rfl⟩, hc, hlive⟩
    · rintro ⟨⟨w, hw, rfl, rfl⟩, hc, hlive⟩
      exact ⟨w, ⟨hw, hlive, hc⟩, rfl, rfl⟩
  rw [(h.call c hlt).indexed.observes_iff]
  rcases Tree.requests_call h hseat c hlt with ⟨he, hnone⟩ | ⟨w, he, -, hr, hs⟩
  · have hnot : ¬ (t.exchange c).Makes id n := fun hm => hnone id hm.1
    rw [he, hold, or_iff_right hnot]
  · have hnew : (t.exchange c).Makes id n ↔ w.id = id ∧ w.subscriber = n := by
      constructor
      · rintro ⟨hr', cs, hs'⟩
        cases hr.symm.trans hr'
        cases hs.symm.trans hs'
        exact ⟨rfl, rfl⟩
      · rintro ⟨rfl, rfl⟩
        exact ⟨hr, w.contexts, hs⟩
    rw [he, hnew, ← hold]
    simp only [List.mem_append, List.mem_singleton, or_and_right, exists_or, exists_eq_left]
    exact or_comm

/-! ## Runs -/

/-- A node that was there is there after a call or its cell was vacated. -/
theorem Tree.live_or_stale_call (h : Coherent t) (c : Call)
    (hlt : (t.call c).tree.nodes.cells.length < UInt32.size) {n : NodeId}
    (hn : t.contains n = true) :
    (t.call c).tree.contains n = true ∨ (t.call c).tree.nodes.Stale n := by
  have key : Coherent (t.call c).tree ∧
      ((t.call c).tree.contains n = true ∨ (t.call c).tree.nodes.Stale n) := by
    refine Tree.call_induction (P := fun s => Coherent s ∧ (s.contains n = true ∨ s.nodes.Stale n))
      ⟨h, Or.inl hn⟩ hlt fun hc hlt ⟨hcoh, hs⟩ => ⟨hcoh.change hc hlt, ?_⟩
    rcases hs with hlive | hstale
    · exact hc.live_or_stale hcoh.sound hlt hlive
    · exact Or.inr (hc.grows.stale hstale)
  exact key.2

/-- An observer that is gone stays away: its number is not given out again. -/
theorem Tree.gone_call (h : Coherent t) {id : ObserverId} (hid : id ≤ t.registered)
    (hgone : t.watch? id = none) (c : Call)
    (hlt : (t.call c).tree.nodes.cells.length < UInt32.size) :
    id ≤ (t.call c).tree.registered ∧ (t.call c).tree.watch? id = none := by
  have hcall := (h.call c hlt).indexed
  have hold : ∀ v ∈ t.watches, v.id ≠ id := fun v hv he => by
    rw [h.indexed.watch?_eq_some_iff.mpr ⟨hv, he⟩] at hgone
    cases hgone
  refine ⟨?_, Option.eq_none_iff_forall_not_mem.mpr fun w hw => ?_⟩
  · rcases Tree.watches_call h c hlt with ⟨-, hreg, -⟩ | ⟨-, hreg, -⟩ <;> rw [hreg]
    · exact hid
    · exact Nat.le_succ_of_le hid
  · obtain ⟨hmem, rfl⟩ := hcall.watch?_eq_some_iff.mp hw
    rcases Tree.watches_call h c hlt with ⟨-, -, hws⟩ | ⟨-, -, v, hws, hv, -⟩
    · obtain ⟨v, hv, hsame⟩ := hws w hmem
      exact hold v hv hsame.id.symm
    · rw [hws, List.mem_append, List.mem_singleton] at hmem
      rcases hmem with hw | rfl
      · exact hold w hw rfl
      · rw [hv] at hid
        exact Nat.not_succ_le_self _ hid

/-- A node that looks or looked is there or its cell was vacated since. -/
def Settled (log : List Exchange) (t : Tree) : Prop :=
  ∀ x ∈ log, ∀ id n, x.Makes id n → t.contains n = true ∨ t.nodes.Stale n

theorem Settled.call {log : List Exchange} (hset : Settled log t) (h : Coherent t)
    (hseat : Seated t) (c : Call) (hlt : (t.call c).tree.nodes.cells.length < UInt32.size) :
    Settled (log ++ [t.exchange c]) (t.call c).tree := by
  intro x hx id n hm
  rcases mem_append_singleton.mp hx with hx | rfl
  · rcases hset x hx id n hm with hlive | hstale
    · exact Tree.live_or_stale_call h c hlt hlive
    · exact Or.inr ((t.grows_call c).stale hstale)
  · exact Or.inl (Tree.contains_of_makes h hseat c hlt hm)

/-- Nothing is left of an observer: nobody told it in the log, it targets nothing, and to unsubscribe
it once more changes nothing. -/
structure Ended (log : List Exchange) (t : Tree) (id : ObserverId) : Prop where
  told : ∀ x ∈ log, ∀ d ∈ x.deliveries, d.observer ≠ id
  gone : t.watch? id = none
  targets : t.targets id = []
  unsubscribe : t.unsubscribe id = t

theorem ended_of_gone {log : List Exchange} {id : ObserverId}
    (htold : ∀ x ∈ log, ∀ d ∈ x.deliveries, d.observer ≠ id) (hgone : t.watch? id = none) :
    Ended log t id where
  told := htold
  gone := hgone
  targets := by
    rw [Tree.targets, hgone]
    rfl
  unsubscribe := Tree.unsubscribe_of_none hgone

namespace Run

variable {log log' : List Exchange} {globalId : String} {value : Value} {registry : Registry}

theorem seated (h : Run AnyCall (.new globalId value registry) log t)
    (hlt : t.nodes.cells.length < UInt32.size) : Seated t :=
  h.keeps (P := fun _ t => Seated t) hlt (fun _ hw => absurd hw List.not_mem_nil)
    fun c hr _ hlt hseat => hseat.call (hr.coherent ((Tree.grows_call _ c).cells_lt hlt)) c hlt

theorem settled (h : Run AnyCall (.new globalId value registry) log t)
    (hlt : t.nodes.cells.length < UInt32.size) : Settled log t := by
  refine h.keeps hlt nofun fun {log t} c hr _ hlt hset => ?_
  have hlt' := (t.grows_call c).cells_lt hlt
  exact hset.call (hr.coherent hlt') (hr.seated hlt') c hlt

/-- **The observers after a run** are those that it made and did not unsubscribe since, as long as
their nodes are there. -/
theorem observes_iff (h : Run AnyCall (.new globalId value registry) log t)
    (hlt : t.nodes.cells.length < UInt32.size) (hl : t.nodes.Lasting) {id : ObserverId}
    {n : NodeId} : t.Observes id n ↔ Subscribed log id n ∧ t.contains n = true := by
  induction h with
  | start =>
    refine ⟨fun ⟨w, hw, _⟩ => absurd hw nofun, fun ⟨hs, _⟩ => ?_⟩
    obtain ⟨x, hx, -⟩ := hs.made
    exact absurd hx List.not_mem_nil
  | @call log t c hr _ ih =>
    have hlt' := (t.grows_call c).cells_lt hlt
    have hcoh := hr.coherent hlt'
    have hseat := hr.seated hlt'
    rw [Tree.observes_call hcoh hseat c hlt, subscribed_append,
      ih hlt' ((t.grows_call c).lasting (Nat.le_of_lt hlt') hl)]
    constructor
    · rintro (hm | ⟨⟨hs, -⟩, hc, hn⟩)
      · exact ⟨Or.inl hm, Tree.contains_of_makes hcoh hseat c hlt hm⟩
      · exact ⟨Or.inr ⟨hs, hc⟩, hn⟩
    · rintro ⟨hm | ⟨hs, hc⟩, hn⟩
      · exact Or.inl hm
      · -- a node that is there now was there before: its cell was not vacated since
        obtain ⟨x, hx, hm⟩ := hs.made
        refine Or.inr ⟨⟨hs, (hr.settled hlt' x hx id n hm).resolve_right fun hstale => ?_⟩, hc, hn⟩
        have hgone := Arena.get?_of_stale hl ((t.grows_call c).stale hstale)
        rw [Tree.contains, Tree.node?, hgone] at hn
        cases hn

/-- A call tells only observers that are there afterwards. -/
theorem not_told (h : Run AnyCall (.new globalId value registry) log t) (c : Call)
    (hlt : (t.call c).tree.nodes.cells.length < UInt32.size) {id : ObserverId}
    (hgone : (t.call c).tree.watch? id = none) :
    ∀ d ∈ (t.call c).trace.deliveries, d.observer ≠ id := by
  have hcoh := h.coherent ((t.grows_call c).cells_lt hlt)
  have hnext := h.call c trivial
  rintro d hd rfl
  obtain ⟨w, hw, -⟩ := (hcoh.spread_call c (hnext.coherent hlt) hlt
    fun w hw => (hnext.booked hlt).single hw).news d hd
  rw [hgone] at hw
  cases hw

/-- An observer that is gone stays away, and no call tells it. -/
theorem ended_of_gone (h : Run AnyCall (.new globalId value registry) log t) {id : ObserverId}
    (hid : id ≤ t.registered) (hgone : t.watch? id = none) (h' : Run AnyCall t log' u)
    (hlt : u.nodes.cells.length < UInt32.size) : Ended log' u id := by
  have key : id ≤ u.registered ∧ Ended log' u id := by
    refine h'.keeps (P := fun log' u => id ≤ u.registered ∧ Ended log' u id) hlt
      ⟨hid, Scope.ended_of_gone nofun hgone⟩ fun {log' u} c hr _ hlt ⟨hid, hend⟩ => ?_
    have hcoh := (h.append hr).coherent ((u.grows_call c).cells_lt hlt)
    have hnext : id ≤ (u.call c).tree.registered ∧ (u.call c).tree.watch? id = none :=
      Tree.gone_call hcoh hid hend.gone c hlt
    refine ⟨hnext.1, Scope.ended_of_gone (fun x hx d hd => ?_) hnext.2⟩
    rcases mem_append_singleton.mp hx with hx | rfl
    · exact hend.told x hx d hd
    · exact (h.append hr).not_told c hlt hnext.2 d hd
  exact key.2

/-- **Once an observer is unsubscribed or its node is gone**, nothing is left of it, and nobody tells
it in the same call or later. -/
theorem ended (h : Run AnyCall (.new globalId value registry) log t) {id : ObserverId} {n : NodeId}
    {c : Call} (hmade : ∃ x ∈ log, x.Makes id n)
    (hend : c = .unsubscribe id ∨ ¬ (t.call c).tree.contains n = true)
    (h' : Run AnyCall (t.call c).tree log' u) (hlt : u.nodes.cells.length < UInt32.size) :
    Ended (t.exchange c :: log') u id := by
  have hnext := h.call c trivial
  have hclt : (t.call c).tree.nodes.cells.length < UInt32.size := h'.cells_lt hlt
  have hcoh := hnext.coherent hclt
  obtain ⟨x, hx, hr, cs, hs⟩ := hmade
  have hx' : x ∈ log ++ [t.exchange c] := List.mem_append_left _ hx
  have hid : id ≤ (t.call c).tree.registered := (hnext.booked hclt).given x hx' id hr
  have hgone : (t.call c).tree.watch? id = none := by
    refine Option.eq_none_iff_forall_not_mem.mpr fun w hw => ?_
    obtain ⟨hmem, rfl⟩ := hcoh.indexed.watch?_eq_some_iff.mp hw
    rcases hend with rfl | hn
    · have hws := t.watches_unsubscribe w.id
      rw [show (t.call (.unsubscribe w.id)).tree.watches = _ from hws] at hmem
      simp at hmem
    · have hm := (hnext.booked hclt).made x hx' w hmem hr
      obtain rfl : w.subscriber = n := hm.subscriber_eq hs
      exact hn (hnext.seated hclt w hmem)
  have hafter := hnext.ended_of_gone hid hgone h' hlt
  refine Scope.ended_of_gone (fun y hy => ?_) hafter.gone
  rcases List.mem_cons.mp hy with rfl | hy
  · exact h.not_told c hclt hgone
  · exact hafter.told y hy

/-- **No observer outlives its node or its subscription**: after a run exactly those are there that
it made and did not unsubscribe and whose nodes are there, and nothing is left of one from the call
on that unsubscribed it or took its node away. -/
theorem observers_end (h : Run AnyCall (.new globalId value registry) log t)
    (hlt : t.nodes.cells.length < UInt32.size) (hl : t.nodes.Lasting) :
    (∀ id n, t.Observes id n ↔ Subscribed log id n ∧ t.contains n = true) ∧
      ∀ id n c, (∃ x ∈ log, x.Makes id n) →
        c = .unsubscribe id ∨ ¬ (t.call c).tree.contains n = true →
          ∀ log' u, Run AnyCall (t.call c).tree log' u →
            u.nodes.cells.length < UInt32.size → Ended (t.exchange c :: log') u id :=
  ⟨fun _ _ => h.observes_iff hlt hl,
    fun _ _ _ hmade hend _ _ h' hlt' => h.ended hmade hend h' hlt'⟩

end Run

/-! ## A node that goes with its observer -/

/-- A root and a child, from which an observer looks at a context of the root. -/
def seatedBelow : List Exchange × Tree :=
  (Tree.new "global" .null .empty).calls
    [.addRoot, .addChild ⟨0, 0⟩, .set ⟨0, 0⟩ "a" .null, .observeContext ⟨1, 0⟩ "a"]

/-- The root goes, the child with it, and their cells are used again. -/
theorem Run.observers_end_of_reused :
    let t := seatedBelow.2
    let v := (t.call (.remove ⟨0, 0⟩)).tree.calls
      [.addRoot, .addChild ⟨1, 1⟩, .set ⟨1, 1⟩ "a" .null]
    t.nodes.cells.length < UInt32.size ∧ t.nodes.Lasting ∧
      (∃ x ∈ seatedBelow.1, x.Makes 1 ⟨1, 0⟩) ∧
      ¬ (t.call (.remove ⟨0, 0⟩)).tree.contains ⟨1, 0⟩ = true ∧
      v.2.nodes.cells.length < UInt32.size ∧
      (t.Observes 1 ⟨1, 0⟩ ↔ Subscribed seatedBelow.1 1 ⟨1, 0⟩ ∧ t.contains ⟨1, 0⟩ = true) ∧
      Ended (t.exchange (.remove ⟨0, 0⟩) :: v.1) v.2 1 := by
  have hrun : Run AnyCall (.new "global" .null .empty) seatedBelow.1 seatedBelow.2 :=
    Run.of_calls fun _ _ _ => trivial
  have hlt : seatedBelow.2.nodes.cells.length < UInt32.size := by cbv
  have hvacated : seatedBelow.2.nodes.cells.map Cell.vacated = [0, 0] := by cbv
  have hl : seatedBelow.2.nodes.Lasting := fun c hc => by
    have hmem : c.vacated ∈ [0, 0] := hvacated ▸ List.mem_map_of_mem hc
    simp at hmem
    rw [hmem]
    decide
  have hmade : ∃ x ∈ seatedBelow.1, x.Makes 1 ⟨1, 0⟩ := by
    refine ⟨_, List.mem_of_getElem? (i := 3) rfl, ?_, ["a"], rfl⟩
    cbv
  have hgone : ¬ (seatedBelow.2.call (.remove ⟨0, 0⟩)).tree.contains ⟨1, 0⟩ = true := by
    have : (seatedBelow.2.call (.remove ⟨0, 0⟩)).tree.contains ⟨1, 0⟩ = false := by cbv
    rw [this]
    exact Bool.false_ne_true
  refine ⟨hlt, hl, hmade, hgone, by cbv, (Run.observers_end hrun hlt hl).1 1 ⟨1, 0⟩, ?_⟩
  exact (Run.observers_end hrun hlt hl).2 1 ⟨1, 0⟩ _ hmade (Or.inr hgone) _ _
    (Run.of_calls fun _ _ _ => trivial) (by cbv)

end DataBinding.Scope
