import DataBinding.Proofs.Scope.Coherent

/-!
# Observers and the calls that made them

Only the targets of an observer ever change: where it looks from, what it watches and what it is
told stay as the call that made it said.

* `Tree.watches_call`: the observers after a call were there before or are the one that it made.
* `Run.booked`: an observer is as the call asked for that gave back its number, and there is such a
  call for each.
-/

namespace DataBinding.Scope

variable {t u : Tree}

/-- The observers are the same, except for what they found. -/
structure SameWatch (v w : Watch) : Prop where
  id : w.id = v.id
  subscriber : w.subscriber = v.subscriber
  contexts : w.contexts = v.contexts
  subject : w.subject = v.subject

theorem SameWatch.refl (w : Watch) : SameWatch w w :=
  ⟨rfl, rfl, rfl, rfl⟩

/-- The observer is as the call asked for. -/
def Call.Makes (w : Watch) : Call → Prop
  | .observe x e => w.subscriber = x ∧ w.contexts = contextsOf e ∧ w.subject = .expression e
  | .observeContext x c => w.subscriber = x ∧ w.contexts = [c] ∧ w.subject = .context
  | _ => False

theorem Call.Makes.congr {v w : Watch} (h : SameWatch v w) {c : Call} (hm : c.Makes v) :
    c.Makes w := by
  cases c with
  | observe x e =>
    obtain ⟨hx, hc, hs⟩ := hm
    exact ⟨h.subscriber.trans hx, h.contexts.trans hc, h.subject.trans hs⟩
  | observeContext x c =>
    obtain ⟨hx, hc, hs⟩ := hm
    exact ⟨h.subscriber.trans hx, h.contexts.trans hc, h.subject.trans hs⟩
  | _ => exact hm

/-- Every observer of the second tree was one of the first. -/
def NoneNew (t u : Tree) : Prop :=
  u.registered = t.registered ∧ ∀ w ∈ u.watches, ∃ v ∈ t.watches, SameWatch v w

theorem noneNew_of_sublist (hws : u.watches.Sublist t.watches)
    (hreg : u.registered = t.registered) : NoneNew t u :=
  ⟨hreg, fun w hw => ⟨w, hws.subset hw, .refl w⟩⟩

theorem noneNew_of_eq (hws : u.watches = t.watches) (hreg : u.registered = t.registered) :
    NoneNew t u :=
  noneNew_of_sublist (hws ▸ List.Sublist.refl _) hreg

theorem NoneNew.rebindWhere (h : NoneNew t u) (hu : Indexed u) (affected : Watch → Bool) :
    NoneNew t (u.rebindWhere affected).1 := by
  refine ⟨(hu.registered_rebindWhere affected).trans h.1, fun w hw => ?_⟩
  rw [hu.watches_rebindWhere, List.mem_map] at hw
  obtain ⟨v, hv, rfl⟩ := hw
  obtain ⟨v₀, hv₀, hsame⟩ := h.2 v hv
  refine ⟨v₀, hv₀, ?_⟩
  split
  · exact ⟨hsame.id, hsame.subscriber, hsame.contexts, hsame.subject⟩
  · exact hsame

theorem noneNew_remove (h : Coherent t) (x : NodeId) : NoneNew t (t.remove x).tree := by
  obtain hr | ⟨-, -, hr⟩ := t.remove_cases x <;> rw [hr]
  · exact noneNew_of_eq rfl rfl
  · have hnone : NoneNew t (t.without x) :=
      noneNew_of_sublist ((t.watches_without x) ▸ List.filter_sublist) (t.registered_unlink x)
    exact hnone.rebindWhere (h.indexed_without x) _

theorem noneNew_set (h : Coherent t) (x : NodeId) (c : String) (value : Value) :
    NoneNew t (t.set x c value).tree := by
  obtain hs | ⟨T, -, -, -, -, hs⟩ | ⟨-, -, hgone, hs⟩ := t.set_cases x c value <;> rw [hs]
  · exact noneNew_of_eq rfl rfl
  · exact noneNew_of_eq (Tree.watches_modifySlot ..) (Tree.registered_modifySlot ..)
  · exact (noneNew_of_eq rfl rfl).rebindWhere (h.addContext hgone value).indexed _

theorem noneNew_setImplicit (h : Coherent t) (m : NodeId) (c : String) (value : Value)
    (hlt : (t.setImplicit m c value).tree.nodes.cells.length < UInt32.size) :
    NoneNew t (t.setImplicit m c value).tree := by
  obtain hs | ⟨i, -, -, hs⟩ | ⟨-, -, hs⟩ := t.setImplicit_cases m c value <;> rw [hs] at hlt ⊢
  · exact noneNew_of_eq rfl rfl
  · exact noneNew_set h i c value
  · exact noneNew_set (h.addScope m ((grows_set ..).cells_lt hlt)) ..

theorem noneNew_clearImplicit (h : Coherent t) (m : NodeId) :
    NoneNew t (t.clearImplicit m).tree := by
  obtain hc | ⟨i, -, -, hc⟩ | ⟨-, -, hc⟩ := t.clearImplicit_cases m <;> rw [hc]
  · exact noneNew_of_eq rfl rfl
  · exact noneNew_remove (h.dropScope m) i
  · exact noneNew_of_eq rfl rfl

theorem noneNew_unsubscribe (t : Tree) (id : ObserverId) : NoneNew t (t.unsubscribe id) :=
  noneNew_of_sublist (t.watches_unsubscribe id ▸ List.filter_sublist) (t.registered_unsubscribe id)

/-- A call that asks for no observer makes none. -/
theorem noneNew_call (h : Coherent t) {c : Call} (hc : ∀ w, ¬ c.Makes w)
    (hlt : (t.call c).tree.nodes.cells.length < UInt32.size) : NoneNew t (t.call c).tree := by
  cases c with
  | addRoot => exact noneNew_of_eq rfl rfl
  | addChild p =>
    obtain ha | ⟨-, ha⟩ := t.addChild_cases p <;> rw [Tree.call, ha]
    · exact noneNew_of_eq rfl rfl
    · exact noneNew_of_eq rfl rfl
  | remove x => exact noneNew_remove h x
  | set x c value => exact noneNew_set h x c value
  | setAt x c path value =>
    obtain ⟨-, hs, -⟩ | ⟨owner, -, -, hs, -⟩ := t.setAt_cases x c path value <;>
      simp only [Tree.call, Outcome.map, hs]
    · exact noneNew_of_eq rfl rfl
    · exact noneNew_of_eq (Tree.watches_modifySlot ..) (Tree.registered_modifySlot ..)
  | setImplicit m c value => exact noneNew_setImplicit h m c value hlt
  | clearImplicit m => exact noneNew_clearImplicit h m
  | observe x e => exact absurd ⟨rfl, rfl, rfl⟩ (hc ⟨0, x, contextsOf e, [], .expression e⟩)
  | observeContext x c => exact absurd ⟨rfl, rfl, rfl⟩ (hc ⟨0, x, [c], [], .context⟩)
  | unsubscribe id => exact noneNew_unsubscribe t id

theorem result_map_ne {α : Type} {f : α → Answer} {answer : Answer} (hf : ∀ a, f a ≠ answer)
    (o : Outcome α) : (o.map f).result ≠ .ok answer := by
  unfold Outcome.map
  cases o.result with
  | error e =>
    intro h
    cases h
  | ok a =>
    intro h
    injection h with h
    exact hf a h

/-- Nor does it give back the number of one. -/
theorem result_call_ne (t : Tree) {c : Call} (hc : ∀ w, ¬ c.Makes w) (id : ObserverId) :
    (t.call c).result ≠ .ok (.observer id) := by
  have hnode : ∀ x, Answer.node x ≠ .observer id := by
    intro x h
    cases h
  have hdone : Answer.done ≠ .observer id := by
    intro h
    cases h
  cases c with
  | addRoot =>
    intro h
    injection h with h
    exact hnode _ h
  | addChild p => exact result_map_ne hnode _
  | observe x e => exact absurd ⟨rfl, rfl, rfl⟩ (hc ⟨0, x, contextsOf e, [], .expression e⟩)
  | observeContext x c => exact absurd ⟨rfl, rfl, rfl⟩ (hc ⟨0, x, [c], [], .context⟩)
  | unsubscribe i =>
    intro h
    injection h with h
    exact hdone h
  | _ => exact result_map_ne (fun _ => hdone) _

/-- The second tree has one observer more, the one that the call asked for. -/
structure OneNew (t u : Tree) (c : Call) : Prop where
  registered : u.registered = t.nextObserver
  watches : ∃ w, u.watches = t.watches ++ [w] ∧ w.id = t.nextObserver ∧ c.Makes w

/-- **The observers after a call** were there before, or are the one whose number it gave back. -/
theorem Tree.watches_call (h : Coherent t) (c : Call)
    (hlt : (t.call c).tree.nodes.cells.length < UInt32.size) :
    ((∀ id, (t.call c).result ≠ .ok (.observer id)) ∧ NoneNew t (t.call c).tree) ∨
      (t.call c).result = .ok (.observer t.nextObserver) ∧ OneNew t (t.call c).tree c := by
  cases c with
  | observe x e =>
    obtain ho | ⟨-, hr, ho, -⟩ := t.observe_cases x e
    · simp only [call, ho, Outcome.map]
      refine Or.inl ⟨fun id h => ?_, noneNew_of_eq rfl rfl⟩
      cases h
    · simp only [call, hr, ho, Outcome.map]
      exact Or.inr ⟨rfl, rfl, _, t.watches_register x _ _, rfl, rfl, rfl, rfl⟩
  | observeContext x c =>
    obtain ⟨e, ends, ho⟩ | ⟨-, -, ho⟩ := t.observeContext_cases x c <;>
      simp only [call, ho, Outcome.map]
    · refine Or.inl ⟨fun id h => ?_, noneNew_of_eq rfl rfl⟩
      cases h
    · exact Or.inr ⟨rfl, rfl, _, t.watches_register x _ _, rfl, rfl, rfl, rfl⟩
  | _ => exact Or.inl ⟨result_call_ne t fun _ hm => hm, noneNew_call h (fun _ hm => hm) hlt⟩

/-! ## Runs -/

/-- What the log of a run says about the observers: numbers were given out in order, and an observer
is as the call asked for that gave back its number. -/
structure Booked (log : List Exchange) (t : Tree) : Prop where
  given : ∀ x ∈ log, ∀ id, x.result = .ok (.observer id) → id ≤ t.registered
  made : ∀ x ∈ log, ∀ w ∈ t.watches, x.result = .ok (.observer w.id) → x.call.Makes w
  maker : ∀ w ∈ t.watches, ∃ x ∈ log, x.result = .ok (.observer w.id)

theorem mem_append_singleton {log : List Exchange} {x y : Exchange} :
    y ∈ log ++ [x] ↔ y ∈ log ∨ y = x := by
  rw [List.mem_append, List.mem_singleton]

/-- An exchange that makes no observer. -/
theorem Booked.append_of_noneNew {log : List Exchange} {x : Exchange} (hb : Booked log t)
    (hr : ∀ id, x.result ≠ .ok (.observer id)) (h : NoneNew t u) : Booked (log ++ [x]) u := by
  obtain ⟨hreg, hws⟩ := h
  constructor
  case given =>
    intro y hy id he
    rcases mem_append_singleton.mp hy with hy | rfl
    · exact hreg ▸ hb.given y hy id he
    · exact absurd he (hr id)
  case made =>
    intro y hy w hw he
    obtain ⟨v, hv, hsame⟩ := hws w hw
    rcases mem_append_singleton.mp hy with hy | rfl
    · exact (hb.made y hy v hv (hsame.id ▸ he)).congr hsame
    · exact absurd he (hr w.id)
  case maker =>
    intro w hw
    obtain ⟨v, hv, hsame⟩ := hws w hw
    obtain ⟨y, hy, he⟩ := hb.maker v hv
    exact ⟨y, mem_append_singleton.mpr (Or.inl hy), hsame.id ▸ he⟩

/-- An exchange that makes one. -/
theorem Booked.append_of_oneNew {log : List Exchange} {x : Exchange} (hb : Booked log t)
    (hi : Indexed t) (hr : x.result = .ok (.observer t.nextObserver)) (h : OneNew t u x.call) :
    Booked (log ++ [x]) u := by
  obtain ⟨hreg, w₀, hws, hid, hm⟩ := h
  have hnew : ∀ id, x.result = .ok (.observer id) → id = t.nextObserver := by
    intro id he
    rw [hr] at he
    injection he with he
    injection he with he
    exact he.symm
  constructor
  case given =>
    intro y hy id he
    rw [hreg]
    rcases mem_append_singleton.mp hy with hy | rfl
    · exact Nat.le_succ_of_le (hb.given y hy id he)
    · exact Nat.le_of_eq (hnew id he)
  case made =>
    intro y hy w hw he
    rw [hws, List.mem_append, List.mem_singleton] at hw
    rcases mem_append_singleton.mp hy with hy | rfl
    · rcases hw with hw | rfl
      · exact hb.made y hy w hw he
      · rw [hid] at he
        exact absurd (hb.given y hy _ he) (Nat.not_succ_le_self t.registered)
    · rcases hw with hw | rfl
      · exact absurd (hnew _ he) (Nat.ne_of_lt (hi.lt_nextObserver hw))
      · exact hm
  case maker =>
    intro w hw
    rw [hws, List.mem_append, List.mem_singleton] at hw
    rcases hw with hw | rfl
    · obtain ⟨y, hy, he⟩ := hb.maker w hw
      exact ⟨y, mem_append_singleton.mpr (Or.inl hy), he⟩
    · exact ⟨x, mem_append_singleton.mpr (Or.inr rfl), hid ▸ hr⟩

theorem Booked.call {log : List Exchange} (hb : Booked log t) (h : Coherent t) (c : Call)
    (hlt : (t.call c).tree.nodes.cells.length < UInt32.size) :
    Booked (log ++ [t.exchange c]) (t.call c).tree := by
  rcases Tree.watches_call h c hlt with ⟨hr, hnone⟩ | ⟨hr, hone⟩
  · exact hb.append_of_noneNew hr hnone
  · exact hb.append_of_oneNew h.indexed hr hone

/-- An observer watches what it is told of: the contexts of its expression, or just one. -/
theorem Booked.watched {log : List Exchange} (hb : Booked log t) {w : Watch} (hw : w ∈ t.watches) :
    (∃ e, w.subject = .expression e ∧ w.contexts = contextsOf e) ∨
      ∃ c, w.subject = .context ∧ w.contexts = [c] := by
  obtain ⟨x, hx, he⟩ := hb.maker w hw
  have hm := hb.made x hx w hw he
  cases hc : x.call with
  | observe y e =>
    rw [hc] at hm
    exact Or.inl ⟨e, hm.2.2, hm.2.1⟩
  | observeContext y c =>
    rw [hc] at hm
    exact Or.inr ⟨c, hm.2.2, hm.2.1⟩
  | _ =>
    rw [hc] at hm
    exact hm.elim

theorem Booked.single {log : List Exchange} (hb : Booked log t) {w : Watch} (hw : w ∈ t.watches)
    (hs : w.subject = .context) : ∃ c, w.contexts = [c] := by
  rcases hb.watched hw with ⟨e, he, -⟩ | ⟨c, -, hc⟩
  · rw [he] at hs
    cases hs
  · exact ⟨c, hc⟩

theorem Booked.contexts {log : List Exchange} (hb : Booked log t) {w : Watch} (hw : w ∈ t.watches)
    {e : Expr} (hs : w.subject = .expression e) : w.contexts = contextsOf e := by
  rcases hb.watched hw with ⟨e', he, hc⟩ | ⟨c, he, -⟩
  · rw [he] at hs
    injection hs with hs
    rw [hc, hs]
  · rw [he] at hs
    cases hs

namespace Run

variable {allowed : Tree → Call → Prop} {log : List Exchange} {globalId : String}
  {value : Value} {registry : Registry}

theorem booked (h : Run allowed (.new globalId value registry) log t)
    (hlt : t.nodes.cells.length < UInt32.size) : Booked log t := by
  refine h.keeps hlt ⟨nofun, nofun, nofun⟩ fun {log t} c hr _ hlt hb => ?_
  exact hb.call (hr.coherent ((t.grows_call c).cells_lt hlt)) c hlt

end Run

end DataBinding.Scope
