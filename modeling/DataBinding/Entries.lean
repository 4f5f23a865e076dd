/-!
# Dictionaries that remember the order of insertion

`Entries α` maps texts to values of type `α` and lists them in the order in which their keys came.
Storing under a key that is there replaces its value in place; a new key goes to the end.

* `get?_insert_self`, `get?_insert_of_ne`: reading after a write.
* `keys_insert`: a write keeps the keys in order and appends at most the one it names.
* `Distinct`: no key comes twice. Whatever is stored key by key is so. The pairs do not carry a
  proof of it, because values contain such pairs of values and are defined together with them.
-/

namespace DataBinding

/-- Keys with their values, in the order in which the keys came. -/
structure Entries (α : Type) where
  toList : List (String × α) := []

namespace Entries

variable {α : Type}

/-- The value of the first pair under the key. -/
def find (k : String) : List (String × α) → Option α
  | [] => none
  | (k', a) :: es => if k' = k then some a else find k es

/-- The pairs with `a` under the key: in the place of the first pair that has it, else at the end. -/
def store (k : String) (a : α) : List (String × α) → List (String × α)
  | [] => [(k, a)]
  | (k', a') :: es => if k' = k then (k', a) :: es else (k', a') :: store k a es

/-- The dictionary with no keys. -/
def empty : Entries α := ⟨[]⟩

instance : EmptyCollection (Entries α) := ⟨empty⟩

/-- The value under the key. -/
def get? (es : Entries α) (k : String) : Option α :=
  find k es.toList

/-- Whether the key is there. -/
def contains (es : Entries α) (k : String) : Bool :=
  (es.get? k).isSome

/-- The keys, in order. -/
def keys (es : Entries α) : List String :=
  es.toList.map (·.1)

/-- No key comes twice. -/
def Distinct (es : Entries α) : Prop :=
  es.keys.Nodup

/-- The number of keys. -/
def size (es : Entries α) : Nat :=
  es.toList.length

/-- Stores `a` under the key, in place if the key is there and at the end otherwise. -/
def insert (es : Entries α) (k : String) (a : α) : Entries α :=
  ⟨store k a es.toList⟩

/-- Changes the value under the key, if it is there. -/
def modify (es : Entries α) (k : String) (f : α → α) : Entries α :=
  ⟨es.toList.map fun e => if e.1 = k then (e.1, f e.2) else e⟩

/-- Changes every value. -/
def mapValues (es : Entries α) (f : α → α) : Entries α :=
  ⟨es.toList.map fun e => (e.1, f e.2)⟩

/-- Stores the pairs one after another. -/
def ofList (pairs : List (String × α)) : Entries α :=
  pairs.foldl (fun es e => es.insert e.1 e.2) empty

theorem find_store_self (k : String) (a : α) (es : List (String × α)) :
    find k (store k a es) = some a := by
  induction es with
  | nil => simp [store, find]
  | cons e es ih =>
    obtain ⟨k', a'⟩ := e
    by_cases h : k' = k <;> simp [store, find, h, ih]

theorem find_store_of_ne {k j : String} (h : j ≠ k) (a : α) (es : List (String × α)) :
    find j (store k a es) = find j es := by
  induction es with
  | nil => simp [store, find, Ne.symm h]
  | cons e es ih =>
    obtain ⟨k', a'⟩ := e
    by_cases hk : k' = k
    · subst hk
      simp [store, find, Ne.symm h]
    · by_cases hj : k' = j
      · simp [store, find, hk, if_pos hj]
      · simp [store, find, hk, if_neg hj, ih]

theorem find_isSome_iff (k : String) (es : List (String × α)) :
    (find k es).isSome = true ↔ k ∈ es.map (·.1) := by
  induction es with
  | nil => simp [find]
  | cons e es ih =>
    obtain ⟨k', a'⟩ := e
    by_cases h : k' = k
    · simp [find, h]
    · simp [find, h, ih, Ne.symm h]

theorem map_fst_store (k : String) (a : α) (es : List (String × α)) :
    (store k a es).map (·.1) = if k ∈ es.map (·.1) then es.map (·.1) else es.map (·.1) ++ [k] := by
  induction es with
  | nil => simp [store]
  | cons e es ih =>
    obtain ⟨k', a'⟩ := e
    by_cases h : k' = k
    · simp [store, h]
    · simp only [store, h, if_false, List.map_cons, ih, List.mem_cons, Ne.symm h, false_or]
      split <;> simp

@[simp] theorem get?_insert_self (es : Entries α) (k : String) (a : α) :
    (es.insert k a).get? k = some a :=
  find_store_self k a es.toList

theorem get?_insert_of_ne (es : Entries α) {k j : String} (h : j ≠ k) (a : α) :
    (es.insert k a).get? j = es.get? j :=
  find_store_of_ne h a es.toList

theorem contains_iff (es : Entries α) (k : String) : es.contains k = true ↔ k ∈ es.keys :=
  find_isSome_iff k es.toList

/-- A write keeps the keys in order and appends at most the one it names. -/
theorem keys_insert (es : Entries α) (k : String) (a : α) :
    (es.insert k a).keys = if es.contains k then es.keys else es.keys ++ [k] := by
  have h := map_fst_store k a es.toList
  have hc := contains_iff es k
  simp only [keys] at *
  by_cases hk : k ∈ es.toList.map (·.1)
  · simp [insert, h, hk, hc.mpr hk]
  · simp [insert, h, hk, show es.contains k = false by simpa [hk] using hc]

end Entries

end DataBinding
