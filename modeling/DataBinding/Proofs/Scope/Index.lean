import DataBinding.Proofs.Scope.Alike
import Mathlib.Data.List.Sort

/-!
# The index of observers

An observer and the contexts it found name each other. The list of a context is exactly the
observers that target it, in the order of their registration (`Indexed`), and every target is a
context that is there (`Backed`).

* `mem_resolve`: the targets that an observer finds when it looks.
* `slot?_modifySlot`, `slot?_foldl_modifySlot`: slots after a change of slots.
* `Indexed.move`: the index is kept when an observer gets the targets that it finds now.
-/

namespace DataBinding.Scope

variable {t : Tree}

/-! ## Sorted lists of numbers -/

theorem insertSorted_cons (i j : ObserverId) (ids : List ObserverId) :
    insertSorted i (j :: ids) = if j < i then j :: insertSorted i ids else i :: j :: ids := by
  unfold insertSorted
  by_cases h : j < i
  · simp [h]
  · simp [h]

theorem mem_insertSorted {i j : ObserverId} {ids : List ObserverId} :
    j ∈ insertSorted i ids ↔ j = i ∨ j ∈ ids := by
  induction ids with
  | nil => simp [insertSorted]
  | cons k ids ih =>
    rw [insertSorted_cons]
    split
    · rw [List.mem_cons, ih, List.mem_cons]
      exact or_left_comm
    · exact List.mem_cons

theorem pairwise_insertSorted {i : ObserverId} {ids : List ObserverId}
    (h : ids.Pairwise (· < ·)) (hi : i ∉ ids) : (insertSorted i ids).Pairwise (· < ·) := by
  induction ids with
  | nil => exact List.pairwise_singleton ..
  | cons k ids ih =>
    rw [List.mem_cons, not_or] at hi
    obtain ⟨hk, hids⟩ := List.pairwise_cons.mp h
    rw [insertSorted_cons]
    split
    · rename_i hlt
      refine List.pairwise_cons.mpr ⟨fun j hj => ?_, ih hids hi.2⟩
      rcases mem_insertSorted.mp hj with rfl | hj
      · exact hlt
      · exact hk j hj
    · rename_i hge
      refine List.pairwise_cons.mpr ⟨fun j hj => ?_, h⟩
      have hik : i < k := Nat.lt_of_le_of_ne (Nat.le_of_not_lt hge) hi.1
      rcases List.mem_cons.mp hj with rfl | hj
      · exact hik
      · exact Nat.lt_trans hik (hk j hj)

/-! ## Targets -/

/-- The global context has one name. -/
def Target.Proper (globalId : String) (target : Target) : Prop :=
  target.owner = .global → target.context = globalId

theorem Target.proper_node {globalId c : String} {x : NodeId} :
    Target.Proper globalId ⟨.node x, c⟩ := by
  intro h
  cases h

namespace Tree

theorem mem_resolve {x : NodeId} {cs : List String} {target : Target} :
    target ∈ t.resolve x cs ↔
      target.context ∈ cs ∧ t.owner? x target.context = some target.owner := by
  unfold resolve
  rw [List.mem_filterMap]
  constructor
  · rintro ⟨c, hc, h⟩
    obtain ⟨owner, ho, rfl⟩ := Option.map_eq_some_iff.mp h
    exact ⟨hc, ho⟩
  · rintro ⟨hc, ho⟩
    exact ⟨_, hc, by rw [ho, Option.map_some]⟩

theorem map_context_resolve (t : Tree) (x : NodeId) (cs : List String) :
    ((t.resolve x cs).map (·.context)).Sublist cs := by
  induction cs with
  | nil => exact List.Sublist.refl _
  | cons c cs ih =>
    unfold resolve at ih ⊢
    cases ho : t.owner? x c with
    | none =>
      rw [List.filterMap_cons_none (by rw [ho, Option.map_none])]
      exact ih.cons c
    | some owner =>
      rw [List.filterMap_cons_some (by rw [ho, Option.map_some]), List.map_cons]
      exact ih.cons_cons c

theorem nodup_resolve {x : NodeId} {cs : List String} (hcs : cs.Nodup) :
    (t.resolve x cs).Nodup :=
  List.Nodup.of_map _ (hcs.sublist (t.map_context_resolve x cs))

theorem proper_of_owner? {x : NodeId} {c : String} {owner : Owner}
    (h : t.owner? x c = some owner) : Target.Proper t.globalId ⟨owner, c⟩ := by
  rintro rfl
  exact eq_globalId_of_owner? h

theorem proper_of_mem_resolve {x : NodeId} {cs : List String} :
    ∀ T ∈ t.resolve x cs, T.Proper t.globalId := by
  intro T hT
  exact proper_of_owner? (mem_resolve.mp hT).2

/-- What a lookup finds is there. -/
theorem slot?_of_owner? {x : NodeId} {c : String} {owner : Owner}
    (h : t.owner? x c = some owner) : (t.slot? ⟨owner, c⟩).isSome = true := by
  cases owner with
  | global => rfl
  | node y =>
    have hy := (holds_of_owner? h).2
    rw [holds_eq] at hy
    cases hn : t.node? y with
    | none =>
      rw [hn] at hy
      cases hy
    | some n =>
      rw [hn, Option.map_some, Option.getD_some] at hy
      simp only [slot?, hn, Option.bind_some]
      exact hy

/-! ## Slots after a change of slots -/

@[simp] theorem globalId_modifySlot (t : Tree) (target : Target) (f : Slot → Slot) :
    (t.modifySlot target f).globalId = t.globalId := by
  unfold modifySlot
  split <;> rfl

@[simp] theorem watches_modifySlot (t : Tree) (target : Target) (f : Slot → Slot) :
    (t.modifySlot target f).watches = t.watches := by
  unfold modifySlot
  split <;> rfl

@[simp] theorem registered_modifySlot (t : Tree) (target : Target) (f : Slot → Slot) :
    (t.modifySlot target f).registered = t.registered := by
  unfold modifySlot
  split <;> rfl

theorem slot?_modifySlot {target other : Target} (ht : target.Proper t.globalId)
    (ho : other.Proper t.globalId) (f : Slot → Slot) :
    (t.modifySlot target f).slot? other =
      if other = target then (t.slot? other).map f else t.slot? other := by
  obtain ⟨owner, c⟩ := target
  obtain ⟨owner', c'⟩ := other
  cases owner with
  | global =>
    obtain rfl : c = t.globalId := ht rfl
    cases owner' with
    | global =>
      obtain rfl : c' = t.globalId := ho rfl
      rw [if_pos rfl]
      rfl
    | node y =>
      rw [if_neg (by simp)]
      rfl
  | node x =>
    cases owner' with
    | global =>
      rw [if_neg (by simp)]
      rfl
    | node y =>
      have hget : (t.modifySlot ⟨.node x, c⟩ f).node? y = if y = x
          then (t.node? x).map fun n => { n with contexts := n.contexts.modify c f }
          else t.node? y := Arena.get?_modify _ _ _ _
      simp only [slot?, hget]
      by_cases hy : y = x
      · subst hy
        rw [if_pos rfl]
        cases t.node? y with
        | none => simp
        | some n =>
          simp only [Option.map_some, Option.bind_some, Entries.get?_modify]
          by_cases hc : c' = c
          · simp [hc]
          · simp [hc]
      · rw [if_neg hy, if_neg fun h => hy (by injection h with h _; injection h)]

/-- Changing the slots of distinct contexts one after another. -/
theorem slot?_foldl_modifySlot {targets : List Target} (hn : targets.Nodup) {other : Target}
    (f : Slot → Slot) :
    ∀ {t : Tree}, (∀ target ∈ targets, target.Proper t.globalId) → other.Proper t.globalId →
      (targets.foldl (fun t target => t.modifySlot target f) t).slot? other =
        if other ∈ targets then (t.slot? other).map f else t.slot? other := by
  induction targets with
  | nil =>
    intro t _ _
    rw [if_neg List.not_mem_nil, List.foldl_nil]
  | cons target targets ih =>
    intro t ht ho
    obtain ⟨hnot, hn⟩ := List.nodup_cons.mp hn
    have ht' : ∀ other ∈ targets, other.Proper (t.modifySlot target f).globalId := fun other h =>
      (globalId_modifySlot t target f).symm ▸ ht other (List.mem_cons_of_mem _ h)
    rw [List.foldl_cons, ih hn ht' ((globalId_modifySlot t target f).symm ▸ ho),
      slot?_modifySlot (ht target List.mem_cons_self) ho]
    by_cases he : other = target
    · subst he
      rw [if_neg hnot, if_pos rfl, if_pos List.mem_cons_self]
    · by_cases hm : other ∈ targets
      · rw [if_pos hm, if_neg he, if_pos (List.mem_cons_of_mem _ hm)]
      · rw [if_neg hm, if_neg he, if_neg (by simp [he, hm])]

theorem foldl_modifySlot_frame (targets : List Target) (f : Slot → Slot) :
    ∀ t : Tree, (targets.foldl (fun t target => t.modifySlot target f) t).watches = t.watches ∧
      (targets.foldl (fun t target => t.modifySlot target f) t).registered = t.registered ∧
      (targets.foldl (fun t target => t.modifySlot target f) t).globalId = t.globalId := by
  induction targets with
  | nil => exact fun t => ⟨rfl, rfl, rfl⟩
  | cons target targets ih =>
    intro t
    obtain ⟨hw, hr, hg⟩ := ih (t.modifySlot target f)
    rw [watches_modifySlot] at hw
    rw [registered_modifySlot] at hr
    rw [globalId_modifySlot] at hg
    exact ⟨hw, hr, hg⟩

/-- The observers that target a context, in the order of their registration. -/
def listeners (t : Tree) (target : Target) : List ObserverId :=
  (t.watches.filter (target ∈ ·.targets)).map (·.id)

theorem mem_listeners {target : Target} {id : ObserverId} :
    id ∈ t.listeners target ↔ ∃ w ∈ t.watches, w.id = id ∧ target ∈ w.targets := by
  unfold listeners
  simp only [List.mem_map, List.mem_filter, decide_eq_true_eq, and_assoc]
  exact exists_congr fun w => and_congr_right fun _ => and_comm

end Tree

/-! ## The index -/

/-- The observers are numbered in the order of registration, each watches distinct contexts, and the
list of a context is exactly the observers that target it. -/
structure Indexed (t : Tree) : Prop where
  ordered : (t.watches.map (·.id)).Pairwise (· < ·)
  registered : ∀ w ∈ t.watches, w.id ≤ t.registered
  distinct : ∀ w ∈ t.watches, w.contexts.Nodup
  found : ∀ w ∈ t.watches, (w.targets.map (·.context)).Sublist w.contexts
  proper : ∀ w ∈ t.watches, ∀ target ∈ w.targets, target.Proper t.globalId
  observers : ∀ {target s}, target.Proper t.globalId → t.slot? target = some s →
    s.observers = t.listeners target

/-- Every target is a context that is there. -/
def Backed (t : Tree) : Prop :=
  ∀ w ∈ t.watches, ∀ target ∈ w.targets, (t.slot? target).isSome = true

namespace Indexed

theorem nodup_targets (h : Indexed t) {w : Watch} (hw : w ∈ t.watches) : w.targets.Nodup :=
  List.Nodup.of_map _ ((h.distinct w hw).sublist (h.found w hw))

theorem eq_of_id_eq (h : Indexed t) {v w : Watch} (hv : v ∈ t.watches) (hw : w ∈ t.watches)
    (he : v.id = w.id) : v = w :=
  List.inj_on_of_nodup_map (h.ordered.imp Nat.ne_of_lt) hv hw he

theorem watch?_eq_some_iff (h : Indexed t) {id : ObserverId} {w : Watch} :
    t.watch? id = some w ↔ w ∈ t.watches ∧ w.id = id := by
  unfold Tree.watch?
  constructor
  · intro hf
    exact ⟨List.mem_of_find?_eq_some hf, by simpa using List.find?_some hf⟩
  · rintro ⟨hw, rfl⟩
    cases hf : t.watches.find? (·.id == w.id) with
    | none => exact absurd (beq_self_eq_true _) (List.find?_eq_none.mp hf w hw)
    | some v =>
      have hv : v.id = w.id := by simpa using List.find?_some hf
      rw [h.eq_of_id_eq (List.mem_of_find?_eq_some hf) hw hv]

theorem pairwise_listeners (h : Indexed t) (target : Target) :
    (t.listeners target).Pairwise (· < ·) :=
  h.ordered.sublist (List.filter_sublist.map _)

end Indexed

theorem indexed_new (globalId : String) (value : Value) (registry : Registry) :
    Indexed (Tree.new globalId value registry) where
  ordered := List.Pairwise.nil
  registered w hw := absurd hw List.not_mem_nil
  distinct w hw := absurd hw List.not_mem_nil
  found w hw := absurd hw List.not_mem_nil
  proper w hw := absurd hw List.not_mem_nil
  observers {target s} hp hs := by
    obtain ⟨owner, c⟩ := target
    cases owner with
    | global =>
      obtain rfl := Option.some.inj hs
      rfl
    | node x => simp [Tree.slot?, Tree.node?, Tree.new, Arena.get?] at hs

theorem backed_new (globalId : String) (value : Value) (registry : Registry) :
    Backed (Tree.new globalId value registry) :=
  fun _ hw => absurd hw List.not_mem_nil

/-! ## Moving an observer -/

namespace Tree

theorem watches_move (t : Tree) (w : Watch) (targets : List Target) :
    (t.move w targets).watches =
      t.watches.map fun v => if v.id = w.id then { v with targets } else v :=
  (Tree.foldl_modifySlot_frame _ _ _).1.trans (Tree.foldl_modifySlot_frame _ _ _).1

theorem registered_move (t : Tree) (w : Watch) (targets : List Target) :
    (t.move w targets).registered = t.registered :=
  (Tree.foldl_modifySlot_frame _ _ _).2.1.trans (Tree.foldl_modifySlot_frame _ _ _).2.1

theorem map_id_watches_move (t : Tree) (w : Watch) (targets : List Target) :
    (t.move w targets).watches.map (·.id) = t.watches.map (·.id) := by
  rw [watches_move, List.map_map]
  congr 1
  funext v
  simp only [Function.comp]
  split <;> rfl

/-- The slots after a move: the contexts lost no longer list the observer, those gained do. -/
theorem slot?_move {w : Watch} {targets : List Target} (hw : w.targets.Nodup)
    (hn : targets.Nodup) (hwp : ∀ target ∈ w.targets, target.Proper t.globalId)
    (hp : ∀ target ∈ targets, target.Proper t.globalId) {other : Target}
    (ho : other.Proper t.globalId) :
    (t.move w targets).slot? other = (t.slot? other).map fun s =>
      { s with observers :=
          if other ∈ targets ∧ other ∉ w.targets then insertSorted w.id s.observers
          else if other ∈ w.targets ∧ other ∉ targets then s.observers.filter (· != w.id)
          else s.observers } := by
  have hdrop : ((w.targets.filter (· ∉ targets)).foldl (fun t target => t.detach w.id target)
      (t.setTargets w.id targets)).slot? other =
        if other ∈ w.targets.filter (· ∉ targets)
        then (t.slot? other).map fun s => { s with observers := s.observers.filter (· != w.id) }
        else t.slot? other :=
    slot?_foldl_modifySlot (hw.filter _) _ (fun T hT => hwp T (List.mem_filter.mp hT).1) ho
  have hid : ((w.targets.filter (· ∉ targets)).foldl (fun t target => t.detach w.id target)
      (t.setTargets w.id targets)).globalId = t.globalId := (Tree.foldl_modifySlot_frame _ _ _).2.2
  have hadd : (t.move w targets).slot? other =
      if other ∈ targets.filter (· ∉ w.targets)
      then (((w.targets.filter (· ∉ targets)).foldl (fun t target => t.detach w.id target)
        (t.setTargets w.id targets)).slot? other).map fun s =>
          { s with observers := insertSorted w.id s.observers }
      else ((w.targets.filter (· ∉ targets)).foldl (fun t target => t.detach w.id target)
        (t.setTargets w.id targets)).slot? other :=
    slot?_foldl_modifySlot (hn.filter _) _
      (fun T hT => hid ▸ hp T (List.mem_filter.mp hT).1) (hid ▸ ho)
  rw [hadd, hdrop]
  simp only [List.mem_filter, decide_eq_true_eq]
  by_cases h : other ∈ targets
  · by_cases h' : other ∈ w.targets
    · simp [h, h']
    · simp [h, h']
  · by_cases h' : other ∈ w.targets
    · simp [h, h']
    · simp [h, h']

end Tree

namespace Indexed

variable {w : Watch} {targets : List Target}

/-- An observer after a move is one from before, with the new targets if it is the one moved. -/
theorem mem_watches_move (h : Indexed t) (hw : w ∈ t.watches) {v : Watch} :
    v ∈ (t.move w targets).watches ↔ v = { w with targets } ∨ v ∈ t.watches ∧ v.id ≠ w.id := by
  rw [Tree.watches_move, List.mem_map]
  constructor
  · rintro ⟨v₀, hv₀, rfl⟩
    split
    · rename_i he
      exact Or.inl (by rw [h.eq_of_id_eq hv₀ hw he])
    · rename_i he
      exact Or.inr ⟨hv₀, he⟩
  · rintro (rfl | ⟨hv, he⟩)
    · exact ⟨w, hw, if_pos rfl⟩
    · exact ⟨v, hv, if_neg he⟩

theorem id_mem_listeners (h : Indexed t) (hw : w ∈ t.watches) {T : Target} :
    w.id ∈ t.listeners T ↔ T ∈ w.targets := by
  rw [Tree.mem_listeners]
  constructor
  · rintro ⟨v, hv, he, hvT⟩
    rwa [h.eq_of_id_eq hv hw he] at hvT
  · intro hT
    exact ⟨w, hw, rfl, hT⟩

theorem mem_listeners_move (h : Indexed t) (hw : w ∈ t.watches) {T : Target} {id : ObserverId} :
    id ∈ (t.move w targets).listeners T ↔
      id = w.id ∧ T ∈ targets ∨ id ≠ w.id ∧ id ∈ t.listeners T := by
  simp only [Tree.mem_listeners, h.mem_watches_move hw]
  constructor
  · rintro ⟨v, rfl | ⟨hv, hne⟩, rfl, hvT⟩
    · exact Or.inl ⟨rfl, hvT⟩
    · exact Or.inr ⟨hne, v, hv, rfl, hvT⟩
  · rintro (⟨rfl, hT⟩ | ⟨hne, v, hv, rfl, hvT⟩)
    · exact ⟨_, Or.inl rfl, rfl, hT⟩
    · exact ⟨v, Or.inr ⟨hv, hne⟩, rfl, hvT⟩

/-- What a move makes of the list of a context is the list of its observers after the move. -/
theorem listeners_move (h : Indexed t) (hw : w ∈ t.watches) (T : Target) :
    (if T ∈ targets ∧ T ∉ w.targets then insertSorted w.id (t.listeners T)
      else if T ∈ w.targets ∧ T ∉ targets then (t.listeners T).filter (· != w.id)
      else t.listeners T) = (t.move w targets).listeners T := by
  have hsort := h.pairwise_listeners T
  have hself := h.id_mem_listeners hw (T := T)
  have hord : ((t.move w targets).watches.map (·.id)).Pairwise (· < ·) := by
    rw [Tree.map_id_watches_move]
    exact h.ordered
  refine List.Pairwise.eq_of_mem_iff ?_ (hord.sublist (List.filter_sublist.map _)) fun id => ?_
  · split
    · rename_i hc
      exact pairwise_insertSorted hsort fun hm => hc.2 (hself.mp hm)
    · split
      · exact hsort.filter _
      · exact hsort
  · rw [h.mem_listeners_move hw]
    by_cases he : id = w.id
    · subst he
      by_cases h₁ : T ∈ targets <;> by_cases h₂ : T ∈ w.targets <;>
        simp [h₁, h₂, hself, mem_insertSorted]
    · by_cases h₁ : T ∈ targets <;> by_cases h₂ : T ∈ w.targets <;>
        simp [h₁, h₂, he, mem_insertSorted]

theorem move (h : Indexed t) (hw : w ∈ t.watches) :
    Indexed (t.move w (t.resolve w.subscriber w.contexts)) := by
  have hid := (alike_move t w (t.resolve w.subscriber w.contexts)).globalId
  constructor
  case ordered =>
    rw [Tree.map_id_watches_move]
    exact h.ordered
  case registered =>
    intro v hv
    rw [Tree.registered_move]
    rcases (h.mem_watches_move hw).mp hv with rfl | ⟨hv, -⟩
    · exact h.registered w hw
    · exact h.registered v hv
  case distinct =>
    intro v hv
    rcases (h.mem_watches_move hw).mp hv with rfl | ⟨hv, -⟩
    · exact h.distinct w hw
    · exact h.distinct v hv
  case found =>
    intro v hv
    rcases (h.mem_watches_move hw).mp hv with rfl | ⟨hv, -⟩
    · exact t.map_context_resolve ..
    · exact h.found v hv
  case proper =>
    intro v hv
    rw [hid]
    rcases (h.mem_watches_move hw).mp hv with rfl | ⟨hv, -⟩
    · exact Tree.proper_of_mem_resolve
    · exact h.proper v hv
  case observers =>
    intro T s hT hs
    rw [hid] at hT
    rw [Tree.slot?_move (h.nodup_targets hw) (Tree.nodup_resolve (h.distinct w hw)) (h.proper w hw)
      Tree.proper_of_mem_resolve hT] at hs
    obtain ⟨s₀, hs₀, rfl⟩ := Option.map_eq_some_iff.mp hs
    simp only [h.observers hT hs₀]
    exact h.listeners_move hw T

end Indexed

end DataBinding.Scope
