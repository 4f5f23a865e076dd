import DataBinding.Proofs.Scope.FanOut
import DataBinding.Proofs.Scope.Lockstep

/-!
# Leaving observers out

The observers of a tree are numbered in the order in which they were registered. If some had never
been registered, the others would have lower numbers, in the same order; apart from that the tree
would be the same, and they would be told the same.

* `renumbered`: the number of an observer when the observers `gone` are left out;
  `renumbered_lt_renumbered`: the order stays.
* `Thinned`: the trees differ in that the observers `gone` are missing from the second one.
* `Thinned.rebindWhere`, `Thinned.register`, `Thinned.unsubscribe` and the like: so they do after
  the same change.
* `Thinned.notify`, `Thinned.fire`: those that stay are told the same.
-/

namespace DataBinding.Scope

variable {gone : List ObserverId}

/-! ## Numbers -/

/-- The number of an observer if the observers `gone` had not been registered. -/
def renumbered (gone : List ObserverId) : ObserverId → ObserverId
  | 0 => 0
  | id + 1 => if id + 1 ∈ gone then renumbered gone id else renumbered gone id + 1

/-- The new number of an observer that stays. -/
def kept? (gone : List ObserverId) (id : ObserverId) : Option ObserverId :=
  if id ∈ gone then none else some (renumbered gone id)

theorem renumbered_of_mem {id : ObserverId} (h : id + 1 ∈ gone) :
    renumbered gone (id + 1) = renumbered gone id :=
  if_pos h

theorem renumbered_of_not_mem {id : ObserverId} (h : id + 1 ∉ gone) :
    renumbered gone (id + 1) = renumbered gone id + 1 :=
  if_neg h

theorem renumbered_le_succ (gone : List ObserverId) (id : ObserverId) :
    renumbered gone id ≤ renumbered gone (id + 1) := by
  by_cases h : id + 1 ∈ gone
  · exact Nat.le_of_eq (renumbered_of_mem h).symm
  · rw [renumbered_of_not_mem h]
    exact Nat.le_succ _

theorem renumbered_mono (gone : List ObserverId) : Monotone (renumbered gone) :=
  monotone_nat_of_le_succ (renumbered_le_succ gone)

/-- **Those that stay keep their order.** -/
theorem renumbered_lt_renumbered {i j : ObserverId} (hij : i < j) (hj : j ∉ gone) :
    renumbered gone i < renumbered gone j := by
  obtain ⟨k, rfl⟩ := Nat.exists_eq_add_one_of_ne_zero (Nat.ne_zero_of_lt hij)
  rw [renumbered_of_not_mem hj]
  exact Nat.lt_succ_of_le (renumbered_mono gone (Nat.le_of_lt_succ hij))

theorem kept?_eq_some_iff {id i : ObserverId} :
    kept? gone id = some i ↔ id ∉ gone ∧ renumbered gone id = i := by
  unfold kept?
  split
  · rename_i h
    simp [h]
  · rename_i h
    simp [h]

theorem kept?_eq_none_iff {id : ObserverId} : kept? gone id = none ↔ id ∈ gone := by
  unfold kept?
  split
  · rename_i h
    simp [h]
  · rename_i h
    simp [h]

theorem kept?_lt {i j i' j' : ObserverId} (hi : kept? gone i = some i')
    (hj : kept? gone j = some j') (hij : i < j) : i' < j' := by
  obtain ⟨-, rfl⟩ := kept?_eq_some_iff.mp hi
  obtain ⟨hstay, rfl⟩ := kept?_eq_some_iff.mp hj
  exact renumbered_lt_renumbered hij hstay

theorem kept?_inj {i j k : ObserverId} (hi : kept? gone i = some k) (hj : kept? gone j = some k) :
    i = j := by
  rcases Nat.lt_trichotomy i j with h | h | h
  · exact absurd (kept?_lt hi hj h) (Nat.lt_irrefl k)
  · exact h
  · exact absurd (kept?_lt hj hi h) (Nat.lt_irrefl k)

theorem pairwise_kept? {ids : List ObserverId} (h : ids.Pairwise (· < ·)) :
    (ids.filterMap (kept? gone)).Pairwise (· < ·) := by
  rw [List.pairwise_filterMap]
  exact h.imp fun hij _ hi _ hj => kept?_lt hi hj hij

/-! ## Observers and what they are told -/

/-- The observer under its new number, if it stays. -/
def Watch.kept? (gone : List ObserverId) (w : Watch) : Option Watch :=
  (Scope.kept? gone w.id).map fun id => { w with id }

/-- What an observer is told, under its new number, if it stays. -/
def Delivery.kept? (gone : List ObserverId) (d : Delivery) : Option Delivery :=
  (Scope.kept? gone d.observer).map fun observer => { d with observer }

/-- A change of observers that does not look at their numbers. -/
theorem map_filterMap_kept? {f g : Watch → Watch}
    (h : ∀ w id, g { w with id } = { f w with id }) (hid : ∀ w, (f w).id = w.id)
    (ws : List Watch) :
    (ws.filterMap (Watch.kept? gone)).map g = (ws.map f).filterMap (Watch.kept? gone) := by
  rw [List.map_filterMap, List.filterMap_map]
  refine congrArg (List.filterMap · ws) (funext fun w => ?_)
  simp only [Function.comp_apply, Watch.kept?, hid, Option.map_map]
  congr 1
  funext id
  exact h w id

/-- A choice of observers that does not look at their numbers. -/
theorem filter_filterMap_kept? {p : Watch → Bool} (hp : ∀ w id, p { w with id } = p w)
    (ws : List Watch) :
    (ws.filterMap (Watch.kept? gone)).filter p = (ws.filter p).filterMap (Watch.kept? gone) := by
  rw [List.filter_filterMap, List.filterMap_filter]
  refine congrArg (List.filterMap · ws) (funext fun w => ?_)
  unfold Watch.kept?
  cases Scope.kept? gone w.id with
  | none => simp
  | some id => by_cases hw : p w = true <;> simp [Option.filter, hp, hw]

theorem map_id_filterMap_kept? (ws : List Watch) :
    (ws.filterMap (Watch.kept? gone)).map (·.id) =
      (ws.map (·.id)).filterMap (kept? gone) := by
  rw [List.map_filterMap, List.filterMap_map]
  refine congrArg (List.filterMap · ws) (funext fun w => ?_)
  simp only [Function.comp_apply, Watch.kept?, Option.map_map]
  exact Option.map_id'

/-- Tells an observer, if it is there, the value that is meant for it. -/
def Tree.inform (t : Tree) (value : Watch → Value) (id : ObserverId) : Trace :=
  match t.watch? id with
  | none => {}
  | some w => t.tell w (value w)

/-! ## Trees -/

/-- The second tree is the first one without the observers `gone`. -/
structure Thinned (gone : List ObserverId) (t u : Tree) : Prop where
  alike : Alike t u
  registered : u.registered = renumbered gone t.registered
  watches : u.watches = t.watches.filterMap (Watch.kept? gone)

namespace Thinned

variable {t u t' u' : Tree}

/-- A change of both trees that leaves the observers alone. -/
theorem congr (h : Thinned gone t u) (halike : Alike t' u') (ht : t'.watches = t.watches)
    (hu : u'.watches = u.watches) (htr : t'.registered = t.registered)
    (hur : u'.registered = u.registered) : Thinned gone t' u' where
  alike := halike
  registered := by rw [hur, htr, h.registered]
  watches := by rw [hu, ht, h.watches]

theorem listeners (h : Thinned gone t u) (T : Target) :
    u.listeners T = (t.listeners T).filterMap (kept? gone) := by
  unfold Tree.listeners
  rw [h.watches, filter_filterMap_kept? (fun _ _ => rfl), map_id_filterMap_kept?]

theorem watch? (h : Thinned gone t u) {id i : ObserverId} (hi : kept? gone id = some i) :
    u.watch? i = (t.watch? id).map fun w => { w with id := i } := by
  have hfound : ∀ w : Watch, (w.kept? gone).any (·.id == i) = (w.id == id) := by
    intro w
    rw [Bool.eq_iff_iff, Option.any_eq_true, beq_iff_eq]
    constructor
    · rintro ⟨v, hv, he⟩
      obtain ⟨j, hj, rfl⟩ := Option.map_eq_some_iff.mp hv
      rw [beq_iff_eq] at he
      exact kept?_inj (he ▸ hj) hi
    · rintro rfl
      exact ⟨{ w with id := i }, by rw [Watch.kept?, hi, Option.map_some], beq_self_eq_true i⟩
  unfold Tree.watch?
  rw [h.watches, List.find?_filterMap, funext hfound]
  cases hf : t.watches.find? (·.id == id) with
  | none => rfl
  | some w =>
    have hw : w.id = id := by simpa using List.find?_some hf
    rw [Option.bind_some, Option.map_some, Watch.kept?, hw, hi, Option.map_some]

theorem targets (h : Thinned gone t u) {id i : ObserverId} (hi : kept? gone id = some i) :
    u.targets i = t.targets id := by
  unfold Tree.targets
  rw [h.watch? hi, Option.map_map]
  rfl

/-! ### Looking again -/

section Rebind

variable {affected : Watch → Bool}

theorem rebindWhere (h : Thinned gone t u) (ht : Indexed t) (hu : Indexed u)
    (ha : ∀ w id, affected { w with id } = affected w) :
    Thinned gone (t.rebindWhere affected).1 (u.rebindWhere affected).1 where
  alike := (alike_rebindWhere t affected).symm.trans (h.alike.trans (alike_rebindWhere u affected))
  registered := by
    rw [ht.registered_rebindWhere, hu.registered_rebindWhere, h.registered]
  watches := by
    rw [ht.watches_rebindWhere, hu.watches_rebindWhere, h.watches]
    refine map_filterMap_kept? (fun w id => ?_) (fun w => ?_) _
    · simp only [ha, h.alike.refresh]
      split <;> rfl
    · split <;> rfl

/-- The same observers move, but for those left out. -/
theorem moved (h : Thinned gone t u) (ht : Indexed t) (hu : Indexed u)
    (ha : ∀ w id, affected { w with id } = affected w) :
    (u.rebindWhere affected).2 = (t.rebindWhere affected).2.filterMap (kept? gone) := by
  refine List.Pairwise.eq_of_mem_iff hu.pairwise_rebindWhere
    (pairwise_kept? ht.pairwise_rebindWhere) fun i => ?_
  simp only [hu.mem_rebindWhere, List.mem_filterMap, ht.mem_rebindWhere, h.watches]
  constructor
  · rintro ⟨v, ⟨w, hw, hv⟩, rfl, hav, hne⟩
    obtain ⟨i, hi, rfl⟩ := Option.map_eq_some_iff.mp hv
    rw [ha] at hav
    rw [h.alike.resolve] at hne
    exact ⟨w.id, ⟨w, hw, rfl, hav, hne⟩, hi⟩
  · rintro ⟨id, ⟨w, hw, rfl, haw, hne⟩, hi⟩
    refine ⟨{ w with id := i }, ⟨w, hw, by rw [Watch.kept?, hi, Option.map_some]⟩, rfl, ?_, ?_⟩
    · rw [ha, haw]
    · rwa [h.alike.resolve]

end Rebind

/-! ### Coming and going -/

/-- An observer registered on both sides. -/
theorem register (h : Thinned gone t u) (hid : t.nextObserver ∉ gone) (x : NodeId)
    (cs : List String) (subject : Subject) :
    kept? gone t.nextObserver = some u.nextObserver ∧
      Thinned gone (t.register x cs subject) (u.register x cs subject) := by
  have hnext : renumbered gone t.nextObserver = u.nextObserver := by
    rw [Tree.nextObserver, renumbered_of_not_mem hid, ← h.registered]
    rfl
  have hkept := kept?_eq_some_iff.mpr ⟨hid, hnext⟩
  refine ⟨hkept, ?_, hnext.symm, ?_⟩
  · exact (alike_register t x cs subject).symm.trans (h.alike.trans (alike_register u x cs subject))
  · rw [t.watches_register, u.watches_register, h.watches, List.filterMap_append]
    simp only [List.filterMap_cons, Watch.kept?, hkept, Option.map_some, List.filterMap_nil,
      h.alike.resolve]

/-- An observer that is left out of the second tree. -/
theorem register_gone (h : Thinned gone t u) (hid : t.nextObserver ∈ gone) (x : NodeId)
    (cs : List String) (subject : Subject) : Thinned gone (t.register x cs subject) u where
  alike := (alike_register t x cs subject).symm.trans h.alike
  registered := h.registered.trans (renumbered_of_mem hid).symm
  watches := by
    rw [t.watches_register, h.watches, List.filterMap_append]
    simp only [List.filterMap_cons, Watch.kept?, kept?_eq_none_iff.mpr hid, Option.map_none,
      List.filterMap_nil, List.append_nil]

theorem unsubscribe (h : Thinned gone t u) {id i : ObserverId} (hi : kept? gone id = some i) :
    Thinned gone (t.unsubscribe id) (u.unsubscribe i) where
  alike := (alike_unsubscribe t id).symm.trans (h.alike.trans (alike_unsubscribe u i))
  registered := by rw [t.registered_unsubscribe, u.registered_unsubscribe, h.registered]
  watches := by
    rw [t.watches_unsubscribe, u.watches_unsubscribe, h.watches, List.filter_filterMap,
      List.filterMap_filter]
    refine congrArg (List.filterMap · t.watches) (funext fun w => ?_)
    unfold Watch.kept?
    by_cases hw : w.id = id
    · simp [hw, hi, Option.filter]
    · cases hj : Scope.kept? gone w.id with
      | none => simp
      | some j =>
        have hne : j ≠ i := fun he => hw (kept?_inj hj (he ▸ hi))
        simp [hw, hne, Option.filter]

/-- An observer that goes and was left out of the second tree. -/
theorem unsubscribe_gone (h : Thinned gone t u) {id : ObserverId} (hid : id ∈ gone) :
    Thinned gone (t.unsubscribe id) u where
  alike := (alike_unsubscribe t id).symm.trans h.alike
  registered := by rw [t.registered_unsubscribe, h.registered]
  watches := by
    rw [t.watches_unsubscribe, h.watches, List.filterMap_filter]
    refine congrArg (List.filterMap · t.watches) (funext fun w => ?_)
    by_cases hw : w.id = id
    · simp [hw, Watch.kept?, kept?_eq_none_iff.mpr hid]
    · simp [hw]

theorem without (h : Thinned gone t u) (x : NodeId) :
    Thinned gone (t.without x) (u.without x) where
  alike := h.alike.without x
  registered := by
    have hr : ∀ t : Tree, (t.without x).registered = t.registered := fun t => t.registered_unlink x
    rw [hr, hr, h.registered]
  watches := by
    rw [t.watches_without, u.watches_without, h.watches, h.alike.removed]
    exact filter_filterMap_kept? (fun _ _ => rfl) _

/-! ### Telling -/

theorem news (h : Thinned gone t u) (w : Watch) (id : ObserverId) (value : Value) :
    u.news { w with id } value = t.news w value := by
  unfold Tree.news
  simp only
  split
  · rw [h.alike.eval]
  · rfl

/-- **Those that stay are told the same**, those left out nothing. -/
theorem deliveries_inform (h : Thinned gone t u) {value value' : Watch → Value}
    (hv : ∀ w id, value' { w with id } = value w) (ids : List ObserverId) :
    (Trace.concat ((ids.filterMap (kept? gone)).map (u.inform value'))).deliveries =
      (Trace.concat (ids.map (t.inform value))).deliveries.filterMap (Delivery.kept? gone) := by
  induction ids with
  | nil => rfl
  | cons id ids ih =>
    have hself : ∀ {w}, t.watch? id = some w → w.id = id := fun hw => by
      simpa using List.find?_some hw
    have htell : (t.inform value id).deliveries.filterMap (Delivery.kept? gone) =
        match kept? gone id with
        | none => []
        | some i => (u.inform value' i).deliveries := by
      unfold Tree.inform
      cases hi : kept? gone id with
      | none =>
        cases hw : t.watch? id with
        | none => rfl
        | some w => simp [Tree.deliveries_tell, Delivery.kept?, hself hw, hi]
      | some i =>
        simp only [h.watch? hi]
        cases hw : t.watch? id with
        | none => rfl
        | some w => simp [Tree.deliveries_tell, Delivery.kept?, hself hw, hi, hv, h.news]
    simp only [Trace.concat] at ih ⊢
    rw [List.map_cons, List.flatMap_cons, List.filterMap_append, htell, ← ih, List.filterMap_cons]
    cases kept? gone id with
    | none => rfl
    | some i => rfl

theorem notify (h : Thinned gone t u) (ht : Indexed t) (hu : Indexed u) {T : Target}
    (hT : T.Proper t.globalId) :
    (u.notify T).deliveries = (t.notify T).deliveries.filterMap (Delivery.kept? gone) := by
  obtain ⟨hs, hr⟩ | ⟨s, r, hs, hr, hvalue⟩ := h.alike.slot?_cases T
  · simp only [Tree.notify, hs, hr]
    rfl
  · have hl : r.observers = s.observers.filterMap (kept? gone) := by
      rw [ht.observers hT hs, hu.observers (h.alike.globalId ▸ hT) hr, h.listeners]
    simp only [Tree.notify, hs, hr, hl, hvalue]
    exact h.deliveries_inform (fun _ _ => rfl) s.observers

theorem fire (h : Thinned gone t u) (ids : List ObserverId) :
    (Trace.concat ((ids.filterMap (kept? gone)).map u.fire)).deliveries =
      (Trace.concat (ids.map t.fire)).deliveries.filterMap (Delivery.kept? gone) := by
  refine h.deliveries_inform (fun w id => ?_) ids
  simp only [funext (h.alike.value? w.subscriber)]

end Thinned

end DataBinding.Scope
