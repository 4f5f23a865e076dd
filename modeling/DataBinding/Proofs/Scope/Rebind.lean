import DataBinding.Proofs.Scope.Index

/-!
# The index after observers looked again, came and went

* `Tree.watches_rebindWhere`: exactly the affected observers have what they find now.
* `Tree.mem_rebindWhere`, `Tree.pairwise_rebindWhere`: exactly those that found something else are
  given as moved, in the order of their registration.
* `Indexed.rebindWhere`, `Indexed.register`, `Indexed.unsubscribe`, `Indexed.dropWatches`: the index
  is kept.
-/

namespace DataBinding.Scope

variable {t u : Tree}

/-! ## Looking again -/

/-- The observer with what it finds now. -/
def Tree.refresh (t : Tree) (w : Watch) : Watch :=
  { w with targets := t.resolve w.subscriber w.contexts }

theorem Tree.refresh_eq_iff {w : Watch} :
    t.refresh w = w ↔ t.resolve w.subscriber w.contexts = w.targets := by
  obtain ⟨id, x, cs, targets, subject⟩ := w
  simp [refresh]

theorem Alike.refresh (h : Alike t u) (w : Watch) : u.refresh w = t.refresh w := by
  unfold Tree.refresh
  rw [h.resolve]

namespace Indexed

theorem watches_move (h : Indexed t) {w : Watch} (hw : w ∈ t.watches) :
    (t.move w (t.resolve w.subscriber w.contexts)).watches =
      t.watches.map fun v => if v.id = w.id then t.refresh v else v := by
  rw [Tree.watches_move]
  refine List.map_congr_left fun v hv => ?_
  by_cases he : v.id = w.id
  · rw [if_pos he, if_pos he, h.eq_of_id_eq hv hw he]
    rfl
  · rw [if_neg he, if_neg he]

theorem rebind (h : Indexed t) (ids : List ObserverId) :
    Indexed (t.rebind ids).1 ∧ (t.rebind ids).1.registered = t.registered ∧
      (t.rebind ids).1.watches = t.watches.map fun w => if w.id ∈ ids then t.refresh w else w := by
  induction ids generalizing t with
  | nil => exact ⟨h, rfl, by simp [Tree.rebind]⟩
  | cons id ids ih =>
    unfold Tree.rebind
    cases hf : t.watch? id with
    | none =>
      obtain ⟨hind, hreg, hws⟩ := ih h
      refine ⟨hind, hreg, hws.trans (List.map_congr_left fun w hw => ?_)⟩
      have hne : w.id ≠ id := fun he => by
        rw [h.watch?_eq_some_iff.mpr ⟨hw, he⟩] at hf
        cases hf
      simp only [List.mem_cons, hne, false_or]
    | some w =>
      obtain ⟨hw, rfl⟩ := h.watch?_eq_some_iff.mp hf
      by_cases he : t.resolve w.subscriber w.contexts = w.targets
      · obtain ⟨hind, hreg, hws⟩ := ih h
        simp only [he, if_true]
        refine ⟨hind, hreg, hws.trans (List.map_congr_left fun v hv => ?_)⟩
        by_cases hid : v.id = w.id
        · rw [h.eq_of_id_eq hv hw hid, Tree.refresh_eq_iff.mpr he, ite_self, ite_self]
        · simp only [List.mem_cons, hid, false_or]
      · simp only [he, if_false]
        obtain ⟨hind, hreg, hws⟩ := ih (h.move hw)
        have hlike := alike_move t w (t.resolve w.subscriber w.contexts)
        refine ⟨hind, hreg.trans (Tree.registered_move ..), ?_⟩
        rw [hws, h.watches_move hw, List.map_map]
        refine List.map_congr_left fun v _ => ?_
        simp only [Function.comp_apply, hlike.refresh, List.mem_cons]
        by_cases hid : v.id = w.id
        · simp [hid, Tree.refresh]
        · simp [hid]

/-- The observers that moved are those that found something else. -/
theorem mem_rebind (h : Indexed t) {ids : List ObserverId} {id : ObserverId} :
    id ∈ (t.rebind ids).2 ↔ id ∈ ids ∧
      ∃ w ∈ t.watches, w.id = id ∧ t.resolve w.subscriber w.contexts ≠ w.targets := by
  induction ids generalizing t with
  | nil => simp [Tree.rebind]
  | cons i ids ih =>
    unfold Tree.rebind
    cases hf : t.watch? i with
    | none =>
      have hne : ∀ w ∈ t.watches, w.id ≠ i := fun w hw he => by
        rw [h.watch?_eq_some_iff.mpr ⟨hw, he⟩] at hf
        cases hf
      rw [ih h, List.mem_cons]
      refine ⟨fun ⟨hid, hw⟩ => ⟨Or.inr hid, hw⟩,
        fun ⟨hid, w, hw, he, hne'⟩ => ⟨?_, w, hw, he, hne'⟩⟩
      exact hid.resolve_left fun hi => hne w hw (he.trans hi)
    | some w =>
      obtain ⟨hw, rfl⟩ := h.watch?_eq_some_iff.mp hf
      by_cases he : t.resolve w.subscriber w.contexts = w.targets
      · simp only [he, if_true, ih h, List.mem_cons]
        refine ⟨fun ⟨hid, hv⟩ => ⟨Or.inr hid, hv⟩,
          fun ⟨hid, v, hv, hve, hne⟩ => ⟨?_, v, hv, hve, hne⟩⟩
        refine hid.resolve_left fun hi => hne ?_
        rw [h.eq_of_id_eq hv hw (hve.trans hi), he]
      · simp only [he, if_false, List.mem_cons, ih (h.move hw)]
        by_cases hid : id = w.id
        · subst hid
          exact ⟨fun _ => ⟨Or.inl rfl, w, hw, rfl, he⟩, fun _ => Or.inl rfl⟩
        · simp only [hid, false_or]
          refine and_congr_right fun _ => ?_
          simp only [h.watches_move hw, List.mem_map,
            (alike_move t w (t.resolve w.subscriber w.contexts)).resolve]
          constructor
          · rintro ⟨_, ⟨v, hv, rfl⟩, rfl, hne⟩
            have hvw : v.id ≠ w.id := fun hvw => hid (by rw [if_pos hvw]; exact hvw)
            rw [if_neg hvw] at hne ⊢
            exact ⟨v, hv, rfl, hne⟩
          · rintro ⟨v, hv, rfl, hne⟩
            exact ⟨v, ⟨v, hv, if_neg hid⟩, rfl, hne⟩

end Indexed

theorem Tree.sublist_rebind (t : Tree) (ids : List ObserverId) : (t.rebind ids).2.Sublist ids := by
  induction ids generalizing t with
  | nil => exact List.Sublist.refl _
  | cons id ids ih =>
    unfold rebind
    cases t.watch? id with
    | none => exact (ih t).cons id
    | some w =>
      dsimp only
      split
      · exact (ih t).cons id
      · exact (ih _).cons_cons id

namespace Indexed

variable {affected : Watch → Bool}

theorem mem_affected (h : Indexed t) {w : Watch} (hw : w ∈ t.watches) :
    w.id ∈ (t.watches.filter affected).map (·.id) ↔ affected w = true := by
  simp only [List.mem_map, List.mem_filter]
  constructor
  · rintro ⟨v, ⟨hv, ha⟩, he⟩
    rwa [h.eq_of_id_eq hv hw he] at ha
  · exact fun ha => ⟨w, ⟨hw, ha⟩, rfl⟩

theorem rebindWhere (h : Indexed t) (affected : Watch → Bool) :
    Indexed (t.rebindWhere affected).1 :=
  (h.rebind _).1

theorem registered_rebindWhere (h : Indexed t) (affected : Watch → Bool) :
    (t.rebindWhere affected).1.registered = t.registered :=
  (h.rebind _).2.1

/-- **Exactly the affected observers have what they find now.** -/
theorem watches_rebindWhere (h : Indexed t) (affected : Watch → Bool) :
    (t.rebindWhere affected).1.watches =
      t.watches.map fun w => if affected w then t.refresh w else w := by
  refine (h.rebind _).2.2.trans (List.map_congr_left fun w hw => ?_)
  simp only [h.mem_affected hw]

theorem mem_rebindWhere (h : Indexed t) {id : ObserverId} :
    id ∈ (t.rebindWhere affected).2 ↔
      ∃ w ∈ t.watches, w.id = id ∧ affected w = true ∧
        t.resolve w.subscriber w.contexts ≠ w.targets := by
  unfold Tree.rebindWhere
  rw [h.mem_rebind]
  constructor
  · rintro ⟨hid, w, hw, rfl, hne⟩
    exact ⟨w, hw, rfl, (h.mem_affected hw).mp hid, hne⟩
  · rintro ⟨w, hw, rfl, ha, hne⟩
    exact ⟨(h.mem_affected hw).mpr ha, w, hw, rfl, hne⟩

/-- The observers that moved are given in the order of their registration. -/
theorem pairwise_rebindWhere (h : Indexed t) : (t.rebindWhere affected).2.Pairwise (· < ·) :=
  h.ordered.sublist ((t.sublist_rebind _).trans (List.filter_sublist.map _))

end Indexed

/-- Every target is there if that was so for the observers that did not look again. -/
theorem backed_rebindWhere (h : Indexed t) {affected : Watch → Bool}
    (hb : ∀ w ∈ t.watches, ¬ affected w = true → ∀ T ∈ w.targets, (t.slot? T).isSome = true) :
    Backed (t.rebindWhere affected).1 := by
  intro w hw T hT
  rw [(alike_rebindWhere t affected).slot?_isSome]
  rw [h.watches_rebindWhere, List.mem_map] at hw
  obtain ⟨v, hv, rfl⟩ := hw
  by_cases ha : affected v = true
  · rw [if_pos ha] at hT
    exact Tree.slot?_of_owner? (Tree.mem_resolve.mp hT).2
  · rw [if_neg ha] at hT
    exact hb v hv ha T hT

/-! ## Coming and going -/

theorem insertSorted_of_lt {i : ObserverId} {ids : List ObserverId} (h : ∀ j ∈ ids, j < i) :
    insertSorted i ids = ids ++ [i] := by
  induction ids with
  | nil => rfl
  | cons j ids ih =>
    rw [insertSorted_cons, if_pos (h j List.mem_cons_self),
      ih fun k hk => h k (List.mem_cons_of_mem _ hk), List.cons_append]

namespace Tree

theorem watches_register (t : Tree) (x : NodeId) (cs : List String) (subject : Subject) :
    (t.register x cs subject).watches =
      t.watches ++ [⟨t.nextObserver, x, cs, t.resolve x cs, subject⟩] := by
  have hf := (foldl_modifySlot_frame (t.resolve x cs)
    (fun s => { s with observers := insertSorted t.nextObserver s.observers }) t).1
  exact congrArg (· ++ [⟨t.nextObserver, x, cs, t.resolve x cs, subject⟩]) hf

theorem slot?_register {x : NodeId} {cs : List String} (hcs : cs.Nodup) {subject : Subject}
    {T : Target} (hT : T.Proper t.globalId) :
    (t.register x cs subject).slot? T = if T ∈ t.resolve x cs
      then (t.slot? T).map fun s => { s with observers := insertSorted t.nextObserver s.observers }
      else t.slot? T :=
  slot?_foldl_modifySlot (nodup_resolve hcs) _ proper_of_mem_resolve hT

theorem listeners_register (t : Tree) (x : NodeId) (cs : List String) (subject : Subject)
    (T : Target) : (t.register x cs subject).listeners T =
      t.listeners T ++ if T ∈ t.resolve x cs then [t.nextObserver] else [] := by
  unfold listeners
  rw [watches_register, List.filter_append, List.map_append]
  by_cases hm : T ∈ t.resolve x cs
  · simp [hm]
  · simp [hm]

theorem unsubscribe_of_none {id : ObserverId} (h : t.watch? id = none) : t.unsubscribe id = t := by
  unfold unsubscribe
  rw [h]

theorem unsubscribe_of_some {id : ObserverId} {w : Watch} (h : t.watch? id = some w) :
    t.unsubscribe id = w.targets.foldl (fun t T => t.detach id T)
      { t with watches := t.watches.filter (·.id != id) } := by
  unfold unsubscribe
  rw [h]

theorem watches_unsubscribe (t : Tree) (id : ObserverId) :
    (t.unsubscribe id).watches = t.watches.filter (·.id != id) := by
  cases hf : t.watch? id with
  | none =>
    rw [unsubscribe_of_none hf]
    refine (List.filter_eq_self.mpr fun w hw => ?_).symm
    have := List.find?_eq_none.mp hf w hw
    rwa [bne, Bool.not_eq_true', ← Bool.not_eq_true]
  | some w =>
    rw [unsubscribe_of_some hf]
    exact (foldl_modifySlot_frame _ _ _).1

theorem registered_unsubscribe (t : Tree) (id : ObserverId) :
    (t.unsubscribe id).registered = t.registered := by
  cases hf : t.watch? id with
  | none => rw [unsubscribe_of_none hf]
  | some w =>
    rw [unsubscribe_of_some hf]
    exact (foldl_modifySlot_frame _ _ _).2.1

theorem listeners_unsubscribe (t : Tree) (id : ObserverId) (T : Target) :
    (t.unsubscribe id).listeners T = (t.listeners T).filter (· != id) := by
  unfold listeners
  rw [watches_unsubscribe, List.filter_map, List.filter_filter, List.filter_filter]
  simp only [Function.comp_def, Bool.and_comm]

end Tree

namespace Indexed

theorem lt_nextObserver (h : Indexed t) {w : Watch} (hw : w ∈ t.watches) :
    w.id < t.nextObserver :=
  Nat.lt_succ_of_le (h.registered w hw)

/-- The index where observers went away and the rest is as before. -/
theorem of_sublist (h : Indexed t) (hws : u.watches.Sublist t.watches)
    (hreg : u.registered = t.registered) (hid : u.globalId = t.globalId)
    (hobs : ∀ {T s}, T.Proper t.globalId → u.slot? T = some s → s.observers = u.listeners T) :
    Indexed u where
  ordered := h.ordered.sublist (hws.map _)
  registered w hw := hreg ▸ h.registered w (hws.subset hw)
  distinct w hw := h.distinct w (hws.subset hw)
  found w hw := h.found w (hws.subset hw)
  proper w hw := hid ▸ h.proper w (hws.subset hw)
  observers hT := hobs (hid ▸ hT)

theorem lt_of_mem_listeners (h : Indexed t) {T : Target} {id : ObserverId}
    (hid : id ∈ t.listeners T) : id < t.nextObserver := by
  obtain ⟨w, hw, rfl, -⟩ := Tree.mem_listeners.mp hid
  exact h.lt_nextObserver hw

/-- **A new observer is listed by the contexts that it finds.** -/
theorem register (h : Indexed t) (x : NodeId) {cs : List String} (hcs : cs.Nodup)
    (subject : Subject) : Indexed (t.register x cs subject) := by
  have hws := t.watches_register x cs subject
  have hid := (alike_register t x cs subject).globalId
  have hmem : ∀ {P : Watch → Prop}, (∀ w ∈ t.watches, P w) →
      P ⟨t.nextObserver, x, cs, t.resolve x cs, subject⟩ →
      ∀ w ∈ (t.register x cs subject).watches, P w := by
    intro P hold hnew w hw
    rw [hws, List.mem_append, List.mem_singleton] at hw
    rcases hw with hw | rfl
    · exact hold w hw
    · exact hnew
  constructor
  case ordered =>
    rw [hws, List.map_append, List.pairwise_append]
    refine ⟨h.ordered, List.pairwise_singleton .., fun i hi j hj => ?_⟩
    obtain ⟨w, hw, rfl⟩ := List.mem_map.mp hi
    rw [List.mem_singleton.mp hj]
    exact h.lt_nextObserver hw
  case registered =>
    exact hmem (fun w hw => Nat.le_of_lt (h.lt_nextObserver hw)) (Nat.le_refl t.nextObserver)
  case distinct => exact hmem h.distinct hcs
  case found => exact hmem h.found (t.map_context_resolve x cs)
  case proper =>
    rw [hid]
    exact hmem h.proper Tree.proper_of_mem_resolve
  case observers =>
    intro T s hT hs
    rw [hid] at hT
    rw [Tree.slot?_register hcs hT] at hs
    rw [Tree.listeners_register]
    split at hs
    · rename_i hm
      obtain ⟨s₀, hs₀, rfl⟩ := Option.map_eq_some_iff.mp hs
      simp only [h.observers hT hs₀, if_pos hm]
      exact insertSorted_of_lt fun j hj => h.lt_of_mem_listeners hj
    · rename_i hm
      rw [h.observers hT hs, if_neg hm, List.append_nil]

/-- **An observer that goes is struck off every list.** -/
theorem unsubscribe (h : Indexed t) (id : ObserverId) : Indexed (t.unsubscribe id) := by
  refine h.of_sublist (t.watches_unsubscribe id ▸ List.filter_sublist) (t.registered_unsubscribe id)
    (alike_unsubscribe t id).globalId fun {T s} hT hs => ?_
  rw [Tree.listeners_unsubscribe]
  have hout : id ∉ t.listeners T → (t.listeners T).filter (· != id) = t.listeners T := by
    intro hnot
    exact List.filter_eq_self.mpr fun i hi => bne_iff_ne.mpr fun he => hnot (he ▸ hi)
  cases hf : t.watch? id with
  | none =>
    rw [Tree.unsubscribe_of_none hf] at hs
    rw [h.observers hT hs, hout]
    intro hid
    obtain ⟨w, hw, he, -⟩ := Tree.mem_listeners.mp hid
    rw [h.watch?_eq_some_iff.mpr ⟨hw, he⟩] at hf
    cases hf
  | some w =>
    obtain ⟨hw, rfl⟩ := h.watch?_eq_some_iff.mp hf
    have hslot : (t.unsubscribe w.id).slot? T = if T ∈ w.targets
        then (t.slot? T).map fun s => { s with observers := s.observers.filter (· != w.id) }
        else t.slot? T := by
      rw [Tree.unsubscribe_of_some hf]
      exact Tree.slot?_foldl_modifySlot (h.nodup_targets hw) _ (h.proper w hw) hT
    rw [hslot] at hs
    split at hs
    · obtain ⟨s₀, hs₀, rfl⟩ := Option.map_eq_some_iff.mp hs
      simp only [h.observers hT hs₀]
    · rename_i hm
      rw [h.observers hT hs, hout]
      exact fun hid => hm ((h.id_mem_listeners hw).mp hid)

/-- **Observers that go with their node are struck off every list.** -/
theorem dropWatches (h : Indexed t) (removed : List NodeId) : Indexed (t.dropWatches removed) := by
  have hws : (t.dropWatches removed).watches = t.watches.filter (·.subscriber ∉ removed) := rfl
  refine h.of_sublist (hws ▸ List.filter_sublist) rfl rfl ?_
  intro T s hT hs
  have hslot : (t.dropWatches removed).slot? T = (t.slot? T).map fun s =>
      { s with observers := s.observers.filter fun id =>
          (t.watches.filter (·.subscriber ∉ removed)).any (·.id == id) } :=
    Tree.slot?_mapSlots t (t.watches.filter (·.subscriber ∉ removed)) t.registered (fun s =>
      { s with observers := s.observers.filter fun id =>
          (t.watches.filter (·.subscriber ∉ removed)).any (·.id == id) }) T
  rw [hslot] at hs
  obtain ⟨s₀, hs₀, rfl⟩ := Option.map_eq_some_iff.mp hs
  simp only [h.observers hT hs₀]
  unfold Tree.listeners
  rw [hws, List.filter_map, List.filter_filter, List.filter_filter]
  refine congrArg _ (List.filter_congr fun w hw => ?_)
  rw [Bool.and_comm]
  congr 1
  rw [Bool.eq_iff_iff]
  simp only [Function.comp_apply, List.any_eq_true, List.mem_filter, beq_iff_eq]
  constructor
  · rintro ⟨v, ⟨hv, hk⟩, he⟩
    rwa [← h.eq_of_id_eq hv hw he]
  · exact fun hk => ⟨w, ⟨hw, hk⟩, rfl⟩

end Indexed

end DataBinding.Scope
