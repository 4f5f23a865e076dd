import DataBinding.Scope.Arena
import Mathlib.Data.List.Nodup
import Mathlib.Order.Nat

/-!
# Arenas as partial maps

Seen from outside, an arena maps identities to things. Each operation changes that map at one
identity only, as long as the free list names the empty cells and every cell has a number of its
own (`Arena.Sound`).

* `get?_modify`, `get?_map`, `get?_alloc`, `get?_release?`: the map after each operation.
* `get?_nextId`: the identity given out next leads to nothing yet.
* `length_le_occupied`: there are no more identities that lead somewhere than occupied cells.
* `Arena.Stale`: an identity whose cell was vacated since. It leads to nothing and is not given out
  again while no cell was vacated `2 ^ 32` times (`get?_of_stale`, `not_stale_nextId`).
* `Arena.Grows`: cells are never taken away, and the count of their vacations never falls.
* `vacations_release?`: taking a thing out vacates its cell once more, and no other.
* `modify_map`, `alloc_map`, `release?_map`: each operation on an arena with its content changed.
-/

namespace DataBinding.Arena

variable {α : Type}

/-! ## Reading -/

theorem get?_eq_some_iff {a : Arena α} {id : NodeId} {x : α} :
    a.get? id = some x ↔
      ∃ c, a.cells[id.index.toNat]? = some c ∧ c.generation = id.generation ∧
        c.content = some x := by
  unfold get?
  cases h : a.cells[id.index.toNat]? with
  | none => simp
  | some c =>
    by_cases hg : c.generation = id.generation
    · simp [hg]
    · simp [hg]

theorem contains_iff {a : Arena α} {id : NodeId} : a.contains id = true ↔ ∃ x, a.get? id = some x :=
  Option.isSome_iff_exists

theorem contains_of_get? {a : Arena α} {id : NodeId} {x : α} (h : a.get? id = some x) :
    a.contains id = true :=
  contains_iff.mpr ⟨x, h⟩

theorem get?_of_not_contains {a : Arena α} {id : NodeId} (h : ¬ a.contains id = true) :
    a.get? id = none := by
  cases h' : a.get? id with
  | none => rfl
  | some x => exact absurd (contains_of_get? h') h

theorem eq_of_parts {i j : NodeId} (hindex : i.index.toNat = j.index.toNat)
    (hgeneration : i.generation = j.generation) : i = j := by
  cases i
  cases j
  simp_all [UInt32.toNat_inj]

/-- Two identities that lead somewhere and name the same cell are the same. -/
theorem eq_of_index_eq {a : Arena α} {i j : NodeId} {x y : α} (hi : a.get? i = some x)
    (hj : a.get? j = some y) (h : i.index.toNat = j.index.toNat) : i = j := by
  obtain ⟨c, hc, hci, -⟩ := get?_eq_some_iff.mp hi
  obtain ⟨d, hd, hdj, -⟩ := get?_eq_some_iff.mp hj
  rw [h, hd] at hc
  obtain rfl := Option.some.inj hc
  exact eq_of_parts h (hci.symm.trans hdj)

/-! ## Soundness -/

/-- The free list names each empty cell once, and the cells can be told apart by number. -/
structure Sound (a : Arena α) : Prop where
  small : a.cells.length ≤ UInt32.size
  nodup : a.free.Nodup
  mem_free : ∀ i : UInt32, i ∈ a.free ↔ ∃ c, a.cells[i.toNat]? = some c ∧ c.content = none

theorem sound_empty : ({} : Arena α).Sound where
  small := by simp
  nodup := List.nodup_nil
  mem_free i := by simp

/-! ## Changing what is there -/

theorem getElem?_modify_cell {a : Arena α} {k : Nat} {f : Cell α → Cell α} {i : Nat} :
    (a.cells.modify k f)[i]? = (a.cells[i]?).map fun c => if k = i then f c else c :=
  List.getElem?_modify f k a.cells i

/-- Changing one element and then all is changing all and then one. -/
theorem map_modify_eq {β γ : Type} {f : β → β} {g : β → γ} {f' : γ → γ}
    (h : ∀ b, g (f b) = f' (g b)) (l : List β) (i : Nat) :
    (l.modify i f).map g = (l.map g).modify i f' := by
  refine List.ext_getElem? fun j => ?_
  simp only [List.getElem?_map, List.getElem?_modify]
  cases l[j]? with
  | none => rfl
  | some b =>
    simp only [Option.map_some, Option.map_eq_map]
    split
    · rw [h]
    · rfl

/-- A change of one element that `g` does not see. -/
theorem map_modify_unseen {β γ : Type} {f : β → β} {g : β → γ} (h : ∀ b, g (f b) = g b)
    (l : List β) (i : Nat) : (l.modify i f).map g = l.map g := by
  have hid : (l.modify i f).map g = (l.map g).modify i id := map_modify_eq h l i
  rwa [List.modify_id] at hid

/-- Changing one thing changes the map at its identity. -/
theorem get?_modify (a : Arena α) (id : NodeId) (f : α → α) (j : NodeId) :
    (a.modify id f).get? j = if j = id then (a.get? id).map f else a.get? j := by
  unfold modify
  by_cases hc : a.contains id = true
  · obtain ⟨x, hx⟩ := contains_iff.mp hc
    obtain ⟨c, hcell, hgen, hcont⟩ := get?_eq_some_iff.mp hx
    simp only [if_pos hc]
    by_cases hj : j = id
    · subst hj
      rw [if_pos rfl, hx]
      refine get?_eq_some_iff.mpr ⟨{ c with content := c.content.map f }, ?_, hgen, ?_⟩
      · rw [getElem?_modify_cell, hcell, Option.map_some, if_pos rfl]
      · simp only [hcont, Option.map_some]
    · rw [if_neg hj]
      unfold get?
      simp only [getElem?_modify_cell]
      by_cases hidx : id.index.toNat = j.index.toNat
      · have hne : c.generation ≠ j.generation :=
          fun he => hj (eq_of_parts hidx.symm (he.symm.trans hgen))
        have hne' : Cell.generation { c with content := c.content.map f } ≠ j.generation := hne
        rw [← hidx, hcell]
        simp only [Option.map_some, if_true, if_neg hne, if_neg hne']
      · simp only [if_neg hidx, Option.map_id']
  · rw [if_neg hc]
    by_cases hj : j = id
    · subst hj
      rw [if_pos rfl, get?_of_not_contains hc, Option.map_none]
    · rw [if_neg hj]

theorem get?_map (a : Arena α) (f : α → α) (j : NodeId) : (a.map f).get? j = (a.get? j).map f := by
  unfold map get?
  simp only [List.getElem?_map]
  cases a.cells[j.index.toNat]? with
  | none => rfl
  | some c =>
    simp only [Option.map_some]
    by_cases hg : c.generation = j.generation
    · have hg' : Cell.generation { c with content := c.content.map f } = j.generation := hg
      rw [if_pos hg, if_pos hg']
    · have hg' : Cell.generation { c with content := c.content.map f } ≠ j.generation := hg
      rw [if_neg hg, if_neg hg', Option.map_none]

/-- Soundness depends on which cells are empty only. -/
theorem Sound.congr {a b : Arena α} (h : a.Sound) (hfree : b.free = a.free)
    (hcells : b.cells.map (·.content.isSome) = a.cells.map (·.content.isSome)) : b.Sound where
  small := by
    have := congrArg List.length hcells
    rw [List.length_map, List.length_map] at this
    rw [this]
    exact h.small
  nodup := hfree ▸ h.nodup
  mem_free i := by
    have hi := congrArg (·[i.toNat]?) hcells
    simp only [List.getElem?_map] at hi
    rw [hfree, h.mem_free i]
    cases ha : a.cells[i.toNat]? <;> cases hb : b.cells[i.toNat]? <;>
      simp_all [Option.isSome_eq_isSome]

/-- A change depends on what the identity leads to only. -/
theorem modify_congr {a : Arena α} {id : NodeId} {x : α} (h : a.get? id = some x) {f g : α → α}
    (hfg : f x = g x) : a.modify id f = a.modify id g := by
  obtain ⟨c, hc, -, hcontent⟩ := get?_eq_some_iff.mp h
  unfold modify
  rw [if_pos (contains_of_get? h), if_pos (contains_of_get? h)]
  congr 1
  refine List.ext_getElem? fun i => ?_
  rw [getElem?_modify_cell, getElem?_modify_cell]
  by_cases hi : id.index.toNat = i
  · simp only [← hi, hc, Option.map_some, if_true, hcontent, hfg]
  · simp only [hi, if_false]

@[simp] theorem free_modify (a : Arena α) (id : NodeId) (f : α → α) :
    (a.modify id f).free = a.free := by
  unfold modify
  split <;> rfl

theorem Sound.modify {a : Arena α} (h : a.Sound) (id : NodeId) (f : α → α) :
    (a.modify id f).Sound := by
  unfold Arena.modify
  split
  · refine h.congr rfl (map_modify_unseen (g := fun c : Cell α => c.content.isSome) ?_ a.cells _)
    exact fun c => Option.isSome_map
  · exact h

/-- A change that `g` does not see is not seen in the arena that `g` gives. -/
theorem map_modify {f g : α → α} (h : ∀ x, g (f x) = g x) (a : Arena α) (id : NodeId) :
    (a.modify id f).map g = a.map g := by
  unfold Arena.modify
  split
  · unfold Arena.map
    congr 1
    refine map_modify_unseen (fun c => ?_) a.cells _
    cases c.content <;> simp [h]
  · rfl

theorem map_map_of_comp {f g : α → α} (h : ∀ x, g (f x) = g x) (a : Arena α) :
    (a.map f).map g = a.map g := by
  unfold Arena.map
  simp only [List.map_map]
  congr 1
  refine List.map_congr_left fun c _ => ?_
  cases hc : c.content <;> simp [h, hc]

theorem contains_map (a : Arena α) (f : α → α) (id : NodeId) :
    (a.map f).contains id = a.contains id := by
  rw [Arena.contains, Arena.contains, get?_map, Option.isSome_map]

theorem getElem?_map_cell {a : Arena α} {f : α → α} {i : Nat} :
    (a.map f).cells[i]? = a.cells[i]?.map fun c => { c with content := c.content.map f } :=
  List.getElem?_map ..

/-- Changes that commute on things commute on arenas. -/
theorem modify_map {f g : α → α} (h : ∀ x, g (f x) = f (g x)) (a : Arena α) (id : NodeId) :
    (a.modify id f).map g = (a.map g).modify id f := by
  unfold Arena.modify
  rw [contains_map]
  split
  · unfold Arena.map
    congr 1
    exact map_modify_eq (fun c => by cases hc : c.content <;> simp [h]) a.cells _
  · rfl

/-! ## Putting in -/

/-- The identity given out next. -/
def nextId (a : Arena α) : NodeId :=
  match a.free with
  | i :: _ => ⟨i, ((a.cells[i.toNat]?).map Cell.generation).getD 0⟩
  | [] => ⟨UInt32.ofNat a.cells.length, 0⟩

theorem alloc_fst (a : Arena α) (x : α) : (a.alloc x).1 = a.nextId := by
  unfold alloc nextId
  cases a.free <;> rfl

/-- At most one cell is added. -/
theorem length_alloc_le (a : Arena α) (x : α) :
    (a.alloc x).2.cells.length ≤ a.cells.length + 1 := by
  unfold alloc
  cases a.free with
  | nil => simp
  | cons i free => simp

theorem nextId_map (a : Arena α) (f : α → α) : (a.map f).nextId = a.nextId := by
  unfold nextId
  simp only [getElem?_map_cell, Option.map_map]
  simp only [Arena.map, List.length_map]
  rfl

theorem alloc_map (a : Arena α) (f : α → α) (x : α) :
    (a.alloc x).2.map f = ((a.map f).alloc (f x)).2 := by
  unfold alloc
  have hfree : (a.map f).free = a.free := rfl
  rw [hfree]
  cases a.free with
  | nil => simp [Arena.map]
  | cons i free =>
    unfold Arena.map
    congr 1
    apply map_modify_eq
    exact fun _ => rfl

/-- The identity given out next leads to nothing yet. -/
theorem get?_nextId {a : Arena α} (h : a.Sound) (hlt : a.cells.length < UInt32.size) :
    a.get? a.nextId = none := by
  unfold nextId
  cases hf : a.free with
  | nil =>
    have hidx : (UInt32.ofNat a.cells.length).toNat = a.cells.length :=
      UInt32.toNat_ofNat_of_lt' hlt
    simp only [get?, hidx, List.getElem?_eq_none (Nat.le_refl _)]
  | cons i free =>
    obtain ⟨c, hc, hcont⟩ := (h.mem_free i).mp (hf ▸ List.mem_cons_self)
    simp only [get?, hc, Option.map_some, Option.getD_some, if_true, hcont]

/-- Putting a thing in changes the map at the identity that was next. -/
theorem get?_alloc {a : Arena α} (h : a.Sound) (x : α)
    (hlt : (a.alloc x).2.cells.length ≤ UInt32.size) (j : NodeId) :
    (a.alloc x).2.get? j = if j = a.nextId then some x else a.get? j := by
  unfold alloc nextId at *
  cases hf : a.free with
  | nil =>
    simp only [hf, List.length_append, List.length_singleton] at hlt ⊢
    have hidx : (UInt32.ofNat a.cells.length).toNat = a.cells.length :=
      UInt32.toNat_ofNat_of_lt' (by omega)
    by_cases hj : j = ⟨UInt32.ofNat a.cells.length, 0⟩
    · subst hj
      rw [if_pos rfl]
      refine get?_eq_some_iff.mpr ⟨⟨0, some x⟩, ?_, rfl, rfl⟩
      simp only [hidx, List.getElem?_concat_length]
    · rw [if_neg hj]
      unfold get?
      by_cases hk : j.index.toNat = a.cells.length
      · have hgen : Cell.generation (α := α) ⟨0, some x⟩ ≠ j.generation :=
          fun he => hj (eq_of_parts (hk.trans hidx.symm) he.symm)
        rw [hk, List.getElem?_concat_length, List.getElem?_eq_none (Nat.le_refl _)]
        simp only [if_neg hgen]
      · have hget : (a.cells ++ [⟨0, some x⟩])[j.index.toNat]? = a.cells[j.index.toNat]? := by
          rcases Nat.lt_or_gt_of_ne hk with hlt' | hgt
          · exact List.getElem?_append_left hlt'
          · rw [List.getElem?_eq_none (by simp; omega), List.getElem?_eq_none (by omega)]
        simp only [hget]
  | cons i free =>
    obtain ⟨c, hc, hcont⟩ := (h.mem_free i).mp (hf ▸ List.mem_cons_self)
    simp only [hc, Option.map_some, Option.getD_some]
    by_cases hj : j = ⟨i, c.generation⟩
    · subst hj
      rw [if_pos rfl]
      refine get?_eq_some_iff.mpr ⟨{ c with content := some x }, ?_, rfl, rfl⟩
      rw [getElem?_modify_cell, hc, Option.map_some, if_pos rfl]
    · rw [if_neg hj]
      unfold get?
      simp only [getElem?_modify_cell]
      by_cases hk : i.toNat = j.index.toNat
      · have hgen : Cell.generation { c with content := some x } ≠ j.generation :=
          fun he => hj (eq_of_parts hk.symm he.symm)
        rw [← hk, hc]
        simp only [Option.map_some, if_true, if_neg hgen, hcont, ite_self]
      · simp only [if_neg hk, Option.map_id']

/-- What an identity leads to after a thing was put in is that thing or was there before. -/
theorem eq_or_get?_of_alloc {a : Arena α} {x y : α} {id : NodeId}
    (h : (a.alloc x).2.get? id = some y) : y = x ∨ a.get? id = some y := by
  obtain ⟨c, hc, hgen, hcontent⟩ := get?_eq_some_iff.mp h
  unfold alloc at hc
  cases hfree : a.free with
  | nil =>
    simp only [hfree, List.getElem?_append] at hc
    split at hc
    · exact Or.inr (get?_eq_some_iff.mpr ⟨c, hc, hgen, hcontent⟩)
    · rw [List.mem_singleton.mp (List.mem_of_getElem? hc)] at hcontent
      exact Or.inl (Option.some.inj hcontent).symm
  | cons i free =>
    simp only [hfree, getElem?_modify_cell] at hc
    obtain ⟨c', hc', he⟩ := Option.map_eq_some_iff.mp hc
    split at he
    · rw [← he] at hcontent
      exact Or.inl (Option.some.inj hcontent).symm
    · rw [he] at hc'
      exact Or.inr (get?_eq_some_iff.mpr ⟨c, hc', hgen, hcontent⟩)

theorem Sound.alloc {a : Arena α} (h : a.Sound) (x : α)
    (hlt : (a.alloc x).2.cells.length ≤ UInt32.size) : (a.alloc x).2.Sound := by
  unfold Arena.alloc at *
  cases hf : a.free with
  | nil =>
    have hnone : ∀ i : UInt32, ¬ ∃ c, a.cells[i.toNat]? = some c ∧ c.content = none := fun i hi =>
      List.not_mem_nil (hf ▸ (h.mem_free i).mpr hi)
    simp only [hf] at hlt ⊢
    refine ⟨hlt, List.nodup_nil, fun i => ⟨fun hi => absurd hi List.not_mem_nil, ?_⟩⟩
    rintro ⟨c, hc, hcont⟩
    exfalso
    rcases Nat.lt_trichotomy i.toNat a.cells.length with hk | hk | hk
    · rw [List.getElem?_append_left hk] at hc
      exact hnone i ⟨c, hc, hcont⟩
    · rw [hk, List.getElem?_concat_length] at hc
      obtain rfl := Option.some.inj hc
      simp at hcont
    · rw [List.getElem?_eq_none (by simp; omega)] at hc
      simp at hc
  | cons i free =>
    simp only [hf] at hlt ⊢
    have hnd : (i :: free).Nodup := hf ▸ h.nodup
    rw [List.nodup_cons] at hnd
    refine ⟨hlt, hnd.2, fun k => ?_⟩
    have hk := h.mem_free k
    rw [hf, List.mem_cons] at hk
    simp only [getElem?_modify_cell, Option.map_eq_some_iff]
    constructor
    · intro hmem
      have hne : ¬ i.toNat = k.toNat := fun he => hnd.1 (UInt32.toNat_inj.mp he ▸ hmem)
      obtain ⟨c, hc, hcont⟩ := hk.mp (Or.inr hmem)
      exact ⟨c, ⟨c, hc, if_neg hne⟩, hcont⟩
    · rintro ⟨d, ⟨c, hc, rfl⟩, hcont⟩
      by_cases he : i.toNat = k.toNat
      · simp [he] at hcont
      · rw [if_neg he] at hcont
        exact (hk.mpr ⟨c, hc, hcont⟩).resolve_left fun heq => he (congrArg UInt32.toNat heq.symm)

/-! ## Taking out -/

/-- Taking a thing out needs only that it is there. -/
theorem release?_eq_some_iff {a b : Arena α} {id : NodeId} {x : α} :
    a.release? id = some (x, b) ↔ a.get? id = some x ∧
      b = { cells := a.cells.modify id.index.toNat fun c => ⟨c.vacated + 1, none⟩
            free := id.index :: a.free } := by
  unfold release?
  cases a.get? id with
  | none => simp
  | some y =>
    simp only [Option.some.injEq, Prod.mk.injEq]
    exact and_congr_right fun _ => eq_comm

theorem release?_map (a : Arena α) (f : α → α) (id : NodeId) :
    (a.map f).release? id = (a.release? id).map fun r => (f r.1, r.2.map f) := by
  unfold release?
  rw [get?_map]
  cases a.get? id with
  | none => rfl
  | some x =>
    simp only [Option.map_some, Arena.map]
    congr 3
    symm
    apply map_modify_eq
    exact fun _ => rfl

/-- Taking a thing out changes the map at its identity. -/
theorem get?_release? {a b : Arena α} {id : NodeId} {x : α} (h : a.release? id = some (x, b))
    (j : NodeId) : b.get? j = if j = id then none else a.get? j := by
  obtain ⟨hx, rfl⟩ := release?_eq_some_iff.mp h
  obtain ⟨c, hc, hgen, -⟩ := get?_eq_some_iff.mp hx
  unfold get?
  simp only [getElem?_modify_cell]
  by_cases hk : id.index.toNat = j.index.toNat
  · rw [← hk, hc]
    simp only [Option.map_some, if_true, ite_self]
    by_cases hj : j = id
    · rw [if_pos hj]
    · have hne : c.generation ≠ j.generation :=
        fun he => hj (eq_of_parts hk.symm (he.symm.trans hgen))
      rw [if_neg hj, if_neg hne]
  · have hj : j ≠ id := fun he => hk (he ▸ rfl)
    simp only [if_neg hk, if_neg hj, Option.map_id']

/-- There are no more identities that lead somewhere than occupied cells. -/
theorem length_le_occupied {a : Arena α} {ids : List NodeId} (hn : ids.Nodup)
    (h : ∀ id ∈ ids, a.contains id = true) : ids.length ≤ a.occupied := by
  induction ids generalizing a with
  | nil => exact Nat.zero_le _
  | cons id rest ih =>
    obtain ⟨hid, hrest⟩ := List.nodup_cons.mp hn
    obtain ⟨x, hx⟩ := contains_iff.mp (h id List.mem_cons_self)
    have hr := release?_eq_some_iff.mpr ⟨hx, rfl⟩
    -- the others still lead somewhere once the first is taken out
    have hle := ih hrest fun j hj => by
      have hne : j ≠ id := fun he => hid (he ▸ hj)
      rw [contains, get?_release? hr, if_neg hne]
      exact h j (List.mem_cons_of_mem _ hj)
    have hone := occupied_release? hr
    rw [List.length_cons]
    omega

/-- There are no more of them than cells. -/
theorem length_le_cells {a : Arena α} {ids : List NodeId} (hn : ids.Nodup)
    (h : ∀ id ∈ ids, a.contains id = true) : ids.length ≤ a.cells.length :=
  (length_le_occupied hn h).trans List.countP_le_length

theorem Sound.release? {a b : Arena α} {id : NodeId} {x : α} (h : a.Sound)
    (hr : a.release? id = some (x, b)) : b.Sound := by
  obtain ⟨hx, rfl⟩ := release?_eq_some_iff.mp hr
  obtain ⟨c, hc, -, hcont⟩ := get?_eq_some_iff.mp hx
  refine ⟨by rw [List.length_modify]; exact h.small, ?_, fun k => ?_⟩
  · refine List.nodup_cons.mpr ⟨fun hmem => ?_, h.nodup⟩
    obtain ⟨d, hd, hnone⟩ := (h.mem_free _).mp hmem
    rw [hc] at hd
    obtain rfl := Option.some.inj hd
    rw [hcont] at hnone
    cases hnone
  · simp only [List.mem_cons, getElem?_modify_cell, Option.map_eq_some_iff, h.mem_free k]
    constructor
    · rintro (rfl | ⟨d, hd, hnone⟩)
      · exact ⟨_, ⟨c, hc, if_pos rfl⟩, rfl⟩
      · refine ⟨_, ⟨d, hd, rfl⟩, ?_⟩
        split
        · rfl
        · exact hnone
    · rintro ⟨e, ⟨d, hd, rfl⟩, hnone⟩
      by_cases he : id.index.toNat = k.toNat
      · exact Or.inl (UInt32.toNat_inj.mp he).symm
      · rw [if_neg he] at hnone
        exact Or.inr ⟨d, hd, hnone⟩

/-! ## Vacations -/

/-- How often the cell was vacated. -/
def vacations (a : Arena α) (i : UInt32) : Nat :=
  ((a.cells[i.toNat]?).map Cell.vacated).getD 0

/-- No cell was vacated so often that its generation began again. -/
def Lasting (a : Arena α) : Prop :=
  ∀ c ∈ a.cells, c.vacated < UInt32.size

theorem lasting_of_vacated {a : Arena α} {counts : List Nat}
    (h : a.cells.map Cell.vacated = counts) (hlt : ∀ n ∈ counts, n < UInt32.size) : a.Lasting :=
  fun _ hc => hlt _ (h ▸ List.mem_map_of_mem hc)

/-- The cell was vacated since the identity was given out. -/
def Stale (a : Arena α) (id : NodeId) : Prop :=
  id.generation.toNat < a.vacations id.index

/-- Cells are never taken away, and the count of their vacations never falls. -/
structure Grows (a b : Arena α) : Prop where
  cells : a.cells.length ≤ b.cells.length
  counts : ∀ i, a.vacations i ≤ b.vacations i

theorem Grows.refl (a : Arena α) : a.Grows a :=
  ⟨Nat.le_refl _, fun _ => Nat.le_refl _⟩

theorem Grows.trans {a b c : Arena α} (h : a.Grows b) (h' : b.Grows c) : a.Grows c :=
  ⟨h.cells.trans h'.cells, fun i => (h.counts i).trans (h'.counts i)⟩

/-- Cells that can be told apart later can be told apart now. -/
theorem Grows.cells_lt {a b : Arena α} (h : a.Grows b) (hlt : b.cells.length < UInt32.size) :
    a.cells.length < UInt32.size := by
  have := h.cells
  omega

theorem Grows.stale {a b : Arena α} (h : a.Grows b) {id : NodeId} (hs : a.Stale id) : b.Stale id :=
  Nat.lt_of_lt_of_le hs (h.counts id.index)

theorem vacations_lt {a : Arena α} (h : a.Lasting) (i : UInt32) : a.vacations i < UInt32.size := by
  unfold vacations
  cases hc : a.cells[i.toNat]? with
  | none => simp [UInt32.size]
  | some c => exact h c (List.mem_of_getElem? hc)

theorem Grows.lasting {a b : Arena α} (h : a.Grows b) (hsmall : a.cells.length ≤ UInt32.size)
    (hb : b.Lasting) : a.Lasting := by
  intro c hc
  obtain ⟨k, hk, rfl⟩ := List.mem_iff_getElem.mp hc
  have hidx : (UInt32.ofNat k).toNat = k := UInt32.toNat_ofNat_of_lt' (by omega)
  have hvac : a.vacations (UInt32.ofNat k) = (a.cells[k]).vacated := by
    rw [vacations, hidx, List.getElem?_eq_getElem hk, Option.map_some, Option.getD_some]
  rw [← hvac]
  exact Nat.lt_of_le_of_lt (h.counts _) (vacations_lt hb _)

theorem vacations_of_cells {a b : Arena α}
    (h : b.cells.map Cell.vacated = a.cells.map Cell.vacated) (i : UInt32) :
    b.vacations i = a.vacations i := by
  have := congrArg (·[i.toNat]?) h
  simp only [List.getElem?_map] at this
  rw [vacations, vacations, this]

theorem grows_of_cells {a b : Arena α} (h : b.cells.map Cell.vacated = a.cells.map Cell.vacated) :
    a.Grows b := by
  constructor
  · have := congrArg List.length h
    rw [List.length_map, List.length_map] at this
    exact Nat.le_of_eq this.symm
  · exact fun i => Nat.le_of_eq (vacations_of_cells h i).symm

theorem vacated_modify (a : Arena α) (id : NodeId) (f : α → α) :
    (a.modify id f).cells.map Cell.vacated = a.cells.map Cell.vacated := by
  unfold modify
  split
  · refine map_modify_unseen (g := Cell.vacated) ?_ a.cells _
    exact fun _ => rfl
  · rfl

@[simp] theorem length_cells_modify (a : Arena α) (id : NodeId) (f : α → α) :
    (a.modify id f).cells.length = a.cells.length := by
  unfold modify
  split
  · exact List.length_modify ..
  · rfl

theorem grows_modify (a : Arena α) (id : NodeId) (f : α → α) : a.Grows (a.modify id f) :=
  grows_of_cells (vacated_modify a id f)

theorem grows_alloc (a : Arena α) (x : α) : a.Grows (a.alloc x).2 := by
  unfold alloc
  cases a.free with
  | nil =>
    refine ⟨by simp, fun i => ?_⟩
    unfold vacations
    rcases Nat.lt_or_ge i.toNat a.cells.length with hk | hk
    · rw [List.getElem?_append_left hk]
    · rw [List.getElem?_eq_none hk]
      exact Nat.zero_le _
  | cons k free =>
    refine grows_of_cells (map_modify_unseen (g := Cell.vacated) ?_ a.cells _)
    exact fun _ => rfl

/-- Taking a thing out vacates its cell once more, and no other. -/
theorem vacations_release? {a b : Arena α} {id : NodeId} {x : α} (h : a.release? id = some (x, b))
    (i : UInt32) : b.vacations i = a.vacations i + if id.index = i then 1 else 0 := by
  obtain ⟨hx, rfl⟩ := release?_eq_some_iff.mp h
  obtain ⟨c, hc, -, -⟩ := get?_eq_some_iff.mp hx
  simp only [vacations, getElem?_modify_cell, Option.map_map]
  by_cases hi : id.index = i
  · rw [if_pos hi, ← hi, hc]
    simp
  · have hne : id.index.toNat ≠ i.toNat := fun he => hi (UInt32.toNat_inj.mp he)
    simp only [if_neg hi, if_neg hne, Nat.add_zero]
    rfl

theorem grows_release? {a b : Arena α} {id : NodeId} {x : α} (h : a.release? id = some (x, b)) :
    a.Grows b := by
  refine ⟨?_, fun i => by rw [vacations_release? h]; exact Nat.le_add_right _ _⟩
  obtain ⟨-, rfl⟩ := release?_eq_some_iff.mp h
  rw [List.length_modify]

/-- An identity is stale once its cell is vacated. -/
theorem stale_release? {a b : Arena α} {id : NodeId} {x : α} (h : a.release? id = some (x, b)) :
    b.Stale id := by
  obtain ⟨hx, rfl⟩ := release?_eq_some_iff.mp h
  obtain ⟨c, hc, hgen, -⟩ := get?_eq_some_iff.mp hx
  have hle : id.generation.toNat ≤ c.vacated := by
    rw [← hgen, Cell.generation, UInt32.toNat_ofNat']
    exact Nat.mod_le _ _
  simp only [Stale, vacations, getElem?_modify_cell, hc, Option.map_some, Option.getD_some, if_true]
  omega

/-- A stale identity leads to nothing. -/
theorem get?_of_stale {a : Arena α} (h : a.Lasting) {id : NodeId} (hs : a.Stale id) :
    a.get? id = none := by
  cases hx : a.get? id with
  | none => rfl
  | some x =>
    obtain ⟨c, hc, hgen, -⟩ := get?_eq_some_iff.mp hx
    have hvac : a.vacations id.index = c.vacated := by
      rw [vacations, hc, Option.map_some, Option.getD_some]
    have heq : id.generation.toNat = c.vacated := by
      rw [← hgen, Cell.generation]
      exact UInt32.toNat_ofNat_of_lt' (h c (List.mem_of_getElem? hc))
    unfold Stale at hs
    omega

/-- A stale identity is not given out again. -/
theorem not_stale_nextId {a : Arena α} (h : a.Lasting) (hs : a.Sound)
    (hlt : a.cells.length < UInt32.size) : ¬ a.Stale a.nextId := by
  unfold nextId Stale vacations
  cases hf : a.free with
  | nil =>
    simp only [UInt32.toNat_ofNat_of_lt' hlt, List.getElem?_eq_none (Nat.le_refl _),
      Option.map_none, Option.getD_none]
    exact Nat.not_lt_zero _
  | cons i free =>
    obtain ⟨c, hc, -⟩ := (hs.mem_free i).mp (hf ▸ List.mem_cons_self)
    have heq : (Cell.generation c).toNat = c.vacated :=
      UInt32.toNat_ofNat_of_lt' (h c (List.mem_of_getElem? hc))
    simp only [hc, Option.map_some, Option.getD_some, heq]
    exact Nat.lt_irrefl _

end DataBinding.Arena
