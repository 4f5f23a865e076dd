import DataBinding.Entries
import Mathlib.Order.Nat

/-!
# Dictionaries after a change

* `get?_modify`, `get?_mapValues`: reading after a change of values.
* `contains_mapValues`: which keys are there.
* `insert_insert`: of two writes under a key the later one stays; `insert_of_get?`: to write what is
  there changes nothing.
* `Distinct.insert`: a write keeps the keys distinct; `modify_congr`: then a change of the value
  under a key depends on that value only.
* `mem_of_get?_ofList`: reading after many writes; `ofList_of_distinct`: pairs with distinct keys
  are stored as they are; `distinct_ofList`: whatever pairs are stored, the keys are distinct.
* `modify_mapValues`, `mapValues_insert`: changing all values before or after a write.
-/

namespace DataBinding.Entries

variable {α β : Type}

theorem find_map (k : String) (f : String → α → β) (es : List (String × α)) :
    find k (es.map fun e => (e.1, f e.1 e.2)) = (find k es).map (f k) := by
  induction es with
  | nil => rfl
  | cons e es ih =>
    obtain ⟨k', a⟩ := e
    by_cases h : k' = k
    · simp [find, h]
    · simp [find, h, ih]

theorem get?_modify (es : Entries α) (k : String) (f : α → α) (j : String) :
    (es.modify k f).get? j = if j = k then (es.get? j).map f else es.get? j := by
  have h : es.modify k f = ⟨es.toList.map fun e => (e.1, if e.1 = k then f e.2 else e.2)⟩ := by
    unfold modify
    congr 1
    refine List.map_congr_left fun e _ => ?_
    split <;> rfl
  rw [h, get?, find_map j (fun k' a => if k' = k then f a else a)]
  by_cases hj : j = k
  · simp only [hj, if_true, get?]
  · simp only [hj, if_false, Option.map_id', get?]

theorem get?_mapValues (es : Entries α) (f : α → α) (j : String) :
    (es.mapValues f).get? j = (es.get? j).map f :=
  find_map j (fun _ => f) es.toList

@[simp] theorem get?_empty (j : String) : (empty : Entries α).get? j = none :=
  rfl

@[simp] theorem contains_mapValues (es : Entries α) (f : α → α) (j : String) :
    (es.mapValues f).contains j = es.contains j := by
  rw [contains, contains, get?_mapValues, Option.isSome_map]

theorem get?_eq_none_of_not_contains {es : Entries α} {k : String} (h : ¬ es.contains k = true) :
    es.get? k = none := by
  cases hk : es.get? k with
  | none => rfl
  | some a => exact absurd (by rw [contains, hk, Option.isSome_some]) h

/-- A change that `g` does not see is not seen in the values that `g` gives. -/
theorem mapValues_modify {f g : α → α} (h : ∀ a, g (f a) = g a) (es : Entries α) (k : String) :
    (es.modify k f).mapValues g = es.mapValues g := by
  unfold modify mapValues
  rw [List.map_map]
  congr 1
  refine List.map_congr_left fun e _ => ?_
  simp only [Function.comp]
  split
  · rw [h]
  · rfl

theorem mapValues_mapValues {f g : α → α} (h : ∀ a, g (f a) = g a) (es : Entries α) :
    (es.mapValues f).mapValues g = es.mapValues g := by
  unfold mapValues
  rw [List.map_map]
  congr 1
  refine List.map_congr_left fun e _ => ?_
  simp only [Function.comp, h]

/-- Changes that commute on values commute on dictionaries. -/
theorem modify_mapValues {f g : α → α} (h : ∀ a, g (f a) = f (g a)) (es : Entries α) (k : String) :
    (es.modify k f).mapValues g = (es.mapValues g).modify k f := by
  unfold modify mapValues
  simp only [List.map_map]
  congr 1
  refine List.map_congr_left fun e _ => ?_
  simp only [Function.comp]
  split
  · rw [h]
  · rfl

theorem map_store (f : α → α) (k : String) (a : α) (es : List (String × α)) :
    (store k a es).map (fun e => (e.1, f e.2)) = store k (f a) (es.map fun e => (e.1, f e.2)) := by
  induction es with
  | nil => rfl
  | cons e es ih =>
    obtain ⟨k', a'⟩ := e
    by_cases h : k' = k
    · simp [store, h]
    · simp [store, h, ih]

theorem mapValues_insert (f : α → α) (es : Entries α) (k : String) (a : α) :
    (es.insert k a).mapValues f = (es.mapValues f).insert k (f a) :=
  congrArg Entries.mk (map_store f k a es.toList)

theorem store_store (k : String) (a b : α) (es : List (String × α)) :
    store k b (store k a es) = store k b es := by
  induction es with
  | nil => simp [store]
  | cons e es ih =>
    obtain ⟨k', a'⟩ := e
    by_cases h : k' = k
    · simp [store, h]
    · simp [store, h, ih]

/-- Of two writes under a key the later one stays. -/
theorem insert_insert (es : Entries α) (k : String) (a b : α) :
    (es.insert k a).insert k b = es.insert k b :=
  congrArg Entries.mk (store_store k a b es.toList)

theorem store_of_find {k : String} {a : α} {es : List (String × α)} (h : find k es = some a) :
    store k a es = es := by
  induction es with
  | nil => cases h
  | cons e es ih =>
    obtain ⟨k', a'⟩ := e
    by_cases hk : k' = k
    · rw [find, if_pos hk] at h
      rw [store, if_pos hk, Option.some.inj h]
    · rw [find, if_neg hk] at h
      rw [store, if_neg hk, ih h]

/-- To write what is there changes nothing. -/
theorem insert_of_get? {es : Entries α} {k : String} {a : α} (h : es.get? k = some a) :
    es.insert k a = es :=
  congrArg Entries.mk (store_of_find h)

theorem mem_of_find {k : String} {a : α} {es : List (String × α)} (h : find k es = some a) :
    (k, a) ∈ es := by
  induction es with
  | nil => cases h
  | cons e es ih =>
    obtain ⟨k', a'⟩ := e
    by_cases hk : k' = k
    · rw [find, if_pos hk] at h
      rw [hk, Option.some.inj h]
      exact List.mem_cons_self
    · rw [find, if_neg hk] at h
      exact List.mem_cons_of_mem _ (ih h)

/-! ## Distinct keys -/

@[simp] theorem keys_modify (es : Entries α) (k : String) (f : α → α) :
    (es.modify k f).keys = es.keys := by
  unfold keys modify
  rw [List.map_map]
  refine List.map_congr_left fun e _ => ?_
  rw [Function.comp_apply]
  split <;> rfl

@[simp] theorem keys_mapValues (es : Entries α) (f : α → α) : (es.mapValues f).keys = es.keys := by
  unfold keys mapValues
  rw [List.map_map]
  rfl

@[simp] theorem distinct_empty : (empty : Entries α).Distinct :=
  List.nodup_nil

theorem distinct_of_keys_eq {β : Type} {es : Entries α} {fs : Entries β} (h : es.Distinct)
    (hkeys : fs.keys = es.keys) : fs.Distinct := by
  rw [Distinct, hkeys]
  exact h

theorem distinct_mapPairs {es : List (String × α)} (h : (⟨es⟩ : Entries α).Distinct) (f : α → β) :
    (⟨es.map fun e => (e.1, f e.2)⟩ : Entries β).Distinct := by
  refine distinct_of_keys_eq h ?_
  rw [keys, keys, List.map_map]
  rfl

theorem Distinct.modify {es : Entries α} (h : es.Distinct) (k : String) (f : α → α) :
    (es.modify k f).Distinct :=
  distinct_of_keys_eq h (keys_modify es k f)

theorem Distinct.insert {es : Entries α} (h : es.Distinct) (k : String) (a : α) :
    (es.insert k a).Distinct := by
  rw [Distinct, keys_insert]
  split
  · exact h
  · rename_i hk
    refine List.nodup_append.mpr ⟨h, List.pairwise_singleton .., fun j hj i hi => ?_⟩
    rintro rfl
    rw [List.mem_singleton.mp hi] at hj
    exact hk ((contains_iff es k).mpr hj)

theorem find_of_mem {es : List (String × α)} (h : (es.map (·.1)).Nodup) {e : String × α}
    (he : e ∈ es) : find e.1 es = some e.2 := by
  induction es with
  | nil => cases he
  | cons d es ih =>
    obtain ⟨hd, hes⟩ := List.nodup_cons.mp h
    rcases List.mem_cons.mp he with rfl | he
    · rw [find, if_pos rfl]
    · have hne : d.1 ≠ e.1 := fun heq => hd (List.mem_map.mpr ⟨e, he, heq.symm⟩)
      rw [find, if_neg hne, ih hes he]

/-- A change under a key depends on the value under it only, if no other pair has the key. -/
theorem modify_congr {es : Entries α} (h : es.Distinct) {k : String} {a : α}
    (ha : es.get? k = some a) {f g : α → α} (hfg : f a = g a) : es.modify k f = es.modify k g := by
  unfold modify
  congr 1
  refine List.map_congr_left fun e he => ?_
  by_cases hk : e.1 = k
  · have hea : find k es.toList = some e.2 := hk ▸ find_of_mem h he
    have hvalue : e.2 = a := Option.some.inj (hea.symm.trans ha)
    rw [if_pos hk, if_pos hk, hvalue, hfg]
  · rw [if_neg hk, if_neg hk]

/-! ## Storing pairs in turn -/

theorem store_of_not_mem {k : String} {es : List (String × α)} (h : k ∉ es.map (·.1)) (a : α) :
    store k a es = es ++ [(k, a)] := by
  induction es with
  | nil => rfl
  | cons e es ih =>
    obtain ⟨hne, hes⟩ := not_or.mp (mt List.mem_cons.mpr h)
    rw [store, if_neg (Ne.symm hne), ih hes]
    rfl

theorem foldl_insert_of_nodup {es pairs : List (String × α)}
    (h : ((es ++ pairs).map (·.1)).Nodup) :
    pairs.foldl (fun es e => es.insert e.1 e.2) ⟨es⟩ = (⟨es ++ pairs⟩ : Entries α) := by
  induction pairs generalizing es with
  | nil => rw [List.append_nil, List.foldl_nil]
  | cons e pairs ih =>
    have hmem : e.1 ∉ es.map (·.1) := by
      rw [List.map_append, List.map_cons] at h
      exact fun hmem => (List.nodup_append.mp h).2.2 e.1 hmem e.1 List.mem_cons_self rfl
    have hstore : (⟨es⟩ : Entries α).insert e.1 e.2 = ⟨es ++ [e]⟩ :=
      congrArg Entries.mk (store_of_not_mem hmem e.2)
    rw [List.foldl_cons, hstore, List.append_cons es e pairs]
    exact ih (List.append_cons es e pairs ▸ h)

/-- Pairs with distinct keys are stored as they are. -/
theorem ofList_of_distinct {pairs : List (String × α)} (h : (⟨pairs⟩ : Entries α).Distinct) :
    ofList pairs = ⟨pairs⟩ :=
  foldl_insert_of_nodup h

/-- What is read from pairs stored one after another is one of them. -/
theorem mem_of_get?_ofList {pairs : List (String × α)} {k : String} {a : α}
    (h : (ofList pairs).get? k = some a) : (k, a) ∈ pairs := by
  have hstored : ∀ es : Entries α,
      (pairs.foldl (fun es e => es.insert e.1 e.2) es).get? k = some a →
        (k, a) ∈ pairs ∨ es.get? k = some a := by
    clear h
    induction pairs with
    | nil => exact fun es h => .inr h
    | cons e pairs ih =>
      intro es h
      rcases ih (es.insert e.1 e.2) h with hmem | hget
      · exact .inl (List.mem_cons_of_mem e hmem)
      · by_cases hk : k = e.1
        · rw [hk, get?_insert_self] at hget
          obtain rfl := Option.some.inj hget
          exact .inl (hk ▸ List.mem_cons_self)
        · rw [get?_insert_of_ne es hk] at hget
          exact .inr hget
  rcases hstored empty h with hmem | hempty
  · exact hmem
  · cases hempty

theorem distinct_ofList (pairs : List (String × α)) : (ofList pairs).Distinct := by
  have hstored : ∀ es : Entries α, es.Distinct →
      (pairs.foldl (fun es e => es.insert e.1 e.2) es).Distinct := by
    induction pairs with
    | nil => exact fun es h => h
    | cons e pairs ih => exact fun es h => ih _ (h.insert e.1 e.2)
  exact hstored empty distinct_empty

end DataBinding.Entries
