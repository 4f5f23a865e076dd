import DataBinding.Proofs.Operation.Excerpts
import DataBinding.Proofs.Value.Equality

/-!
# Elements of arrays

`insert` and `removeIndex` undo each other at every position, and report the positions that are out
of bounds. `remove` leaves out the elements that are equal to a value, and `contains` tells whether
there is one. Equal elements need not be the same (NaN, the two zeros, objects with their keys in
another order), so what the two have to do with each other rests on equality being symmetric and
transitive.

* `Arrays.insert_within`, `Arrays.removeIndex_within` and the like: what the functions give.
* `Arrays.Without`: the elements that are not equal to a value, in their order.
* `any_insertIdx`, `any_filter_of_ne`: what an array contains after a change.
* `Arrays.FitTogether`: how the operations fit together.
* `Registry.call_arrays`: the built-in ones do.
-/

namespace DataBinding

namespace Arrays

variable {items : List Value} {v : Value} {i : Int64}

/-! ## Elements by position -/

theorem insert_within (h : 0 ≤ i.toInt) (hle : i.toInt ≤ items.length) :
    insert [.array items, v, .int i] = .ok (.array (items.insertIdx i.toInt.toNat v)) := by
  have hindex : Params.index [.array items, v, .int i] 2 = .ok i.toInt.toNat :=
    Params.index_of_nonneg rfl h
  have hput : insertAt items i.toInt.toNat v = .ok (items.insertIdx i.toInt.toNat v) :=
    if_pos (by omega)
  change (Params.index [.array items, v, .int i] 2).bind _ = _
  rw [hindex, Except.bind, if_neg (by omega), hput]
  rfl

theorem insert_outside (h : ¬ (0 ≤ i.toInt ∧ i.toInt ≤ items.length)) :
    insert [.array items, v, .int i] = Guarded.fail .outOfBounds := by
  change (Params.index [.array items, v, .int i] 2).bind _ = _
  by_cases hi : 0 ≤ i.toInt
  · rw [Params.index_of_nonneg rfl hi, Except.bind, if_pos (by omega)]
  · rw [Params.index_of_neg rfl (Int.not_le.mp hi)]
    rfl

theorem removeIndex_within (h : 0 ≤ i.toInt) (hlt : i.toInt < items.length) :
    removeIndex [.array items, .int i] = .ok (.array (items.eraseIdx i.toInt.toNat)) := by
  have htake : removeAt items i.toInt.toNat = .ok (items.eraseIdx i.toInt.toNat) :=
    if_pos (by omega)
  change (Params.index [.array items, .int i] 1).bind _ = _
  rw [Params.index_of_nonneg rfl h, Except.bind, if_neg (by omega), htake]
  rfl

theorem removeIndex_outside (h : ¬ (0 ≤ i.toInt ∧ i.toInt < items.length)) :
    removeIndex [.array items, .int i] = Guarded.fail .outOfBounds := by
  change (Params.index [.array items, .int i] 1).bind _ = _
  by_cases hi : 0 ≤ i.toInt
  · rw [Params.index_of_nonneg rfl hi, Except.bind, if_pos (by omega)]
  · rw [Params.index_of_neg rfl (Int.not_le.mp hi)]
    rfl

/-! ## Elements by value -/

/-- The elements that are not equal to a value: the longest run through the array, in order, that
meets no other. -/
structure Without (items : List Value) (v : Value) (kept : List Value) : Prop where
  inOrder : kept.Sublist items
  unequal : ∀ w ∈ kept, (w == v) = false
  longest : ∀ others : List Value, others.Sublist items → (∀ w ∈ others, (w == v) = false) →
    others.Sublist kept

theorem without_filter (items : List Value) (v : Value) :
    Without items v (items.filter fun w => !(w == v)) where
  inOrder := List.filter_sublist
  unequal w hw := by
    simpa using (List.mem_filter.mp hw).2
  longest others hsub hne := by
    have hall : others.filter (fun w => !(w == v)) = others :=
      List.filter_eq_self.mpr fun w hw => by rw [hne w hw, Bool.not_false]
    exact hall ▸ hsub.filter _

/-- An array contains what it contained, and the element that is put in. -/
theorem any_insertIdx {k : Nat} (hk : k ≤ items.length) (v u : Value) :
    (items.insertIdx k v).any (· == u) = ((v == u) || items.any (· == u)) := by
  refine Bool.eq_iff_iff.mpr ?_
  simp only [List.any_eq_true, Bool.or_eq_true, List.mem_insertIdx hk, or_and_right, exists_or,
    exists_eq_left]

theorem any_filter_self (items : List Value) (v : Value) :
    (items.filter fun w => !(w == v)).any (· == v) = false := by
  refine List.any_eq_false.mpr fun w hw => ?_
  rw [(without_filter items v).unequal w hw]
  exact Bool.false_ne_true

/-- What is equal to `u` is not equal to `v`, as it would join them. -/
theorem any_filter_of_ne {u : Value} (h : (u == v) = false) (items : List Value) :
    (items.filter fun w => !(w == v)).any (· == u) = items.any (· == u) := by
  have hjoin (w : Value) : (!(w == v) && (w == u)) = (w == u) := by
    cases hwu : w == u with
    | false => exact Bool.and_false _
    | true =>
      have hwv : (w == v) = false := Bool.eq_false_iff.mpr fun hwv =>
        Bool.eq_false_iff.mp h (Value.beq_trans (Value.beq_symm hwu) hwv)
      rw [hwv]
      rfl
  rw [List.any_filter]
  exact congrArg items.any (funext hjoin)

theorem length_filter_eq_iff (items : List Value) (v : Value) :
    (items.filter fun w => !(w == v)).length = items.length ↔
      (items.any fun w => w == v) = false := by
  simp [List.length_filter_eq_length_iff, List.any_eq_false]

/-! ## Together -/

/-- How the operations on an array fit together. -/
structure FitTogether (call : String → List Value → Except OperationError Value)
    (items : List Value) : Prop where
  contains : ∀ u, ∃ t, call "contains" [.array items, u] = .ok (.bool t) ∧
    (t = true ↔ ∃ w ∈ items, (w == u) = true)
  insert : ∀ v (i : Int64), 0 ≤ i.toInt → i.toInt ≤ items.length → ∃ more,
    call "insert" [.array items, v, .int i] = .ok (.array more) ∧
    more[i.toInt.toNat]? = some v ∧
    call "removeIndex" [.array more, .int i] = .ok (.array items) ∧
    ∀ u, ∃ t, call "contains" [.array items, u] = .ok (.bool t) ∧
      call "contains" [.array more, u] = .ok (.bool ((u == v) || t))
  insert_outside : ∀ v (i : Int64), ¬ (0 ≤ i.toInt ∧ i.toInt ≤ items.length) →
    call "insert" [.array items, v, .int i] = .error .outOfBounds
  removeIndex : ∀ i : Int64, 0 ≤ i.toInt → i.toInt < items.length → ∃ v fewer,
    items[i.toInt.toNat]? = some v ∧
    call "removeIndex" [.array items, .int i] = .ok (.array fewer) ∧
    call "insert" [.array fewer, v, .int i] = .ok (.array items)
  removeIndex_outside : ∀ i : Int64, ¬ (0 ≤ i.toInt ∧ i.toInt < items.length) →
    call "removeIndex" [.array items, .int i] = .error .outOfBounds
  remove : ∀ v, ∃ kept, call "remove" [.array items, v] = .ok (.array kept) ∧
    Without items v kept ∧
    call "contains" [.array kept, v] = .ok (.bool false) ∧
    (∀ u, (u == v) = false →
      call "contains" [.array kept, u] = call "contains" [.array items, u]) ∧
    (kept.length = items.length ↔ call "contains" [.array items, v] = .ok (.bool false))

end Arrays

namespace Registry

open Arrays

theorem call_insert_eq (items : List Value) (v : Value) (i : Int64) :
    builtin.call "insert" [.array items, v, .int i] =
      (Arrays.insert [.array items, v, .int i]).mapError Halt.toError :=
  call_of_mem (b := ⟨"insert", .range 2 (some 3), Arrays.insert⟩)
    (by simp [builtins, Arrays.operations]) rfl

theorem call_removeIndex_eq (items : List Value) (i : Int64) :
    builtin.call "removeIndex" [.array items, .int i] =
      (Arrays.removeIndex [.array items, .int i]).mapError Halt.toError :=
  call_of_mem (b := ⟨"removeIndex", .range 1 (some 2), Arrays.removeIndex⟩)
    (by simp [builtins, Arrays.operations]) rfl

theorem call_remove_eq (items : List Value) (v : Value) :
    builtin.call "remove" [.array items, v] =
      .ok (.array (items.filter fun w => !(w == v))) :=
  call_of_mem (b := ⟨"remove", .fixed 2, Arrays.remove⟩)
    (by simp [builtins, Arrays.operations]) rfl

theorem call_contains_eq (items : List Value) (v : Value) :
    builtin.call "contains" [.array items, v] = .ok (.bool (items.any fun w => w == v)) :=
  call_of_mem (b := ⟨"contains", .fixed 2, Arrays.contains⟩)
    (by simp [builtins, Arrays.operations]) rfl

/-- **The operations on arrays fit together** for every array. -/
theorem call_arrays (items : List Value) : FitTogether builtin.call items where
  contains u := ⟨_, call_contains_eq items u, List.any_eq_true⟩
  insert v i hi hle := by
    have hlength : (items.insertIdx i.toInt.toNat v).length = items.length + 1 :=
      List.length_insertIdx_of_le_length (by omega) v
    refine ⟨items.insertIdx i.toInt.toNat v, ?_, ?_, ?_, fun u => ⟨_, call_contains_eq items u, ?_⟩⟩
    · rw [call_insert_eq, insert_within hi hle]
      rfl
    · rw [List.getElem?_insertIdx_self, if_pos (by omega)]
    · rw [call_removeIndex_eq, removeIndex_within hi (by omega), List.eraseIdx_insertIdx_self]
      rfl
    · rw [call_contains_eq, any_insertIdx (by omega), Value.beq_comm v u]
  insert_outside v i hout := by
    rw [call_insert_eq, insert_outside hout]
    rfl
  removeIndex i hi hlt := by
    have hk : i.toInt.toNat < items.length := by omega
    have hlength := List.length_eraseIdx_of_lt hk
    refine ⟨items[i.toInt.toNat], items.eraseIdx i.toInt.toNat, List.getElem?_eq_getElem hk, ?_, ?_⟩
    · rw [call_removeIndex_eq, removeIndex_within hi hlt]
      rfl
    · rw [call_insert_eq, insert_within hi (by omega), List.insertIdx_eraseIdx_getElem hk]
      rfl
  removeIndex_outside i hout := by
    rw [call_removeIndex_eq, removeIndex_outside hout]
    rfl
  remove v := by
    refine ⟨_, call_remove_eq items v, without_filter items v, ?_, fun u hu => ?_, ?_⟩
    · rw [call_contains_eq, any_filter_self]
    · rw [call_contains_eq, call_contains_eq, any_filter_of_ne hu]
    · rw [length_filter_eq_iff, call_contains_eq]
      simp

/-- Two objects whose keys stand in another order are both removed, and the array has no element at
its length to take out, but room to put one in. -/
theorem call_arrays_of_reordered :
    let one : Value := .object ⟨[("x", .int 1), ("y", .null)]⟩
    let other : Value := .object ⟨[("y", .null), ("x", .int 1)]⟩
    let items : List Value := [one, .double 0.0, other]
    (∃ kept, builtin.call "remove" [.array items, other] = .ok (.array kept) ∧
      builtin.call "contains" [.array kept, other] = .ok (.bool false) ∧
      builtin.call "contains" [.array kept, .double (-0.0)] =
        builtin.call "contains" [.array items, .double (-0.0)]) ∧
      builtin.call "removeIndex" [.array items, .int 3] = .error .outOfBounds ∧
      ∃ more, builtin.call "insert" [.array items, .null, .int 3] = .ok (.array more) ∧
        builtin.call "removeIndex" [.array more, .int 3] = .ok (.array items) := by
  intro one other items
  have hfit := call_arrays items
  obtain ⟨kept, hremove, -, hgone, hothers, -⟩ := hfit.remove other
  obtain ⟨more, hinsert, -, hback, -⟩ := hfit.insert .null 3 (by decide) (by decide)
  exact ⟨⟨kept, hremove, hgone, hothers _ (by rfl)⟩, hfit.removeIndex_outside 3 (by decide), more,
    hinsert, hback⟩

end Registry

end DataBinding
