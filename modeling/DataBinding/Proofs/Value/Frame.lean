import DataBinding.Proofs.Value.Places

/-!
# What a write touches

A write at a path changes what is at the path and nothing that is read elsewhere. On the way there
it keeps every object and every array that it passes: an object has its fields in their order, with
at most one more at the end, and an array its length. Where it passes nothing, or `null`, it makes
an object with one field.

* `child?_put_of_ne`: what lies behind the other steps stays.
* `get?_of_write?_aside`, `get?_of_write?_below`, `get?_of_write?_along`: what is read after a write
  beside its path, at or behind it, and on the way.
* `set_touchesOnly`: all of it together.
-/

namespace DataBinding.Value

variable {v w x c : Value} {p q r : Path} {s s' : Step}

/-- What lies behind the other steps stays. -/
theorem child?_put_of_ne (h : v.room? s = some c) (hne : s' ≠ s) (d : Value) :
    (v.put s d).child? s' = v.child? s' := by
  cases s with
  | key name =>
    cases s' with
    | key name' =>
      have hname : name' ≠ name := fun he => hne (congrArg Step.key he)
      cases v with
      | object fields => exact Entries.get?_insert_of_ne fields hname d
      | null => exact Entries.get?_insert_of_ne .empty hname d
      | _ => cases h
    | index j => cases v <;> rfl
  | index i =>
    cases v with
    | array items =>
      cases s' with
      | key name' => rfl
      | index j =>
        have hindex : i.toNat ≠ j.toNat := fun he => hne (congrArg Step.index
          (UInt64.toNat_inj.mp he.symm))
        exact List.getElem?_set_ne hindex
    | _ => cases h

/-! ## What is read after a write -/

/-- Beside its path a write changes nothing that is read. -/
theorem get?_of_write?_aside (h : v.write? p x = some w) (hpq : ¬ p <+: q) (hqp : ¬ q <+: p) :
    w.get? q = v.get? q := by
  induction p generalizing v w q with
  | nil => exact absurd List.nil_prefix hpq
  | cons s p ih =>
    cases q with
    | nil => exact absurd List.nil_prefix hqp
    | cons s' q =>
      rw [write?_cons] at h
      obtain ⟨c, hroom, hput⟩ := Option.bind_eq_some_iff.mp h
      obtain ⟨d, hwrite, rfl⟩ := Option.map_eq_some_iff.mp hput
      by_cases hs : s' = s
      · subst hs
        have hd : d.get? q = c.get? q :=
          ih hwrite (fun hp => hpq (List.cons_prefix_cons.mpr ⟨rfl, hp⟩))
            fun hq => hqp (List.cons_prefix_cons.mpr ⟨rfl, hq⟩)
        rw [get?, get?, child?_put hroom, Option.bind_some, hd]
        obtain hc | ⟨hc, rfl⟩ := child?_of_room? hroom
        · rw [hc, Option.bind_some]
        · -- Nothing was there, and the way goes on: `q` is not the end of it.
          obtain ⟨s'', q, rfl⟩ : ∃ s'' q', q = s'' :: q' :=
            List.exists_cons_of_ne_nil fun he => hqp ⟨p, by rw [he]; rfl⟩
          rw [hc, get?_null_cons, Option.bind_none]
      · rw [get?, get?, child?_put_of_ne hroom hs]

theorem get?_of_write?_below (h : v.write? p x = some w) (r : Path) :
    w.get? (p ++ r) = x.get? r := by
  rw [get?_append, get?_of_write? h, Option.bind_some]

/-- On the way of a write each value is put together again, with what is behind the next step
changed. -/
theorem get?_of_write?_along (h : v.write? (q ++ s :: r) x = some w) :
    ∃ c d, (v.valueAt q).room? s = some c ∧ w.get? q = some ((v.valueAt q).put s d) := by
  rw [write?_append] at h
  obtain ⟨u, hu, hput⟩ := Option.bind_eq_some_iff.mp h
  rw [write?_cons] at hu
  obtain ⟨c, hroom, hmap⟩ := Option.bind_eq_some_iff.mp hu
  obtain ⟨d, -, rfl⟩ := Option.map_eq_some_iff.mp hmap
  exact ⟨c, d, hroom, get?_of_write? hput⟩

/-! ## What a write touches -/

/-- `w` is `v` with `x` at the path, and otherwise as it was. -/
structure TouchesOnly (v w : Value) (p : Path) (x : Value) : Prop where
  /-- What is read elsewhere is what was read there before. -/
  aside : ∀ q, ¬ p <+: q → ¬ q <+: p → w.get? q = v.get? q
  /-- At the path and behind it `x` is read. -/
  below : ∀ r, w.get? (p ++ r) = x.get? r
  /-- An object on the way keeps its keys in their order; the next step's key comes last if it is
  new. -/
  objects : ∀ q s r fields, p = q ++ s :: r → v.get? q = some (.object fields) →
    ∃ name fields', s = .key name ∧ w.get? q = some (.object fields') ∧
      fields'.keys = if fields.contains name then fields.keys else fields.keys ++ [name]
  /-- An array on the way keeps its length. -/
  arrays : ∀ q s r items, p = q ++ s :: r → v.get? q = some (.array items) →
    ∃ items', w.get? q = some (.array items') ∧ items'.length = items.length
  /-- Where the way leads through `null` or through nothing there is an object with the next step's
  key afterwards. -/
  made : ∀ q s r, p = q ++ s :: r → v.valueAt q = .null →
    ∃ name fields', s = .key name ∧ w.get? q = some (.object fields') ∧ fields'.keys = [name]

theorem touchesOnly_of_write? (h : v.write? p x = some w) : TouchesOnly v w p x where
  aside _ hpq hqp := get?_of_write?_aside h hpq hqp
  below r := get?_of_write?_below h r
  objects q s r fields hp hq := by
    subst hp
    obtain ⟨c, d, hroom, hw⟩ := get?_of_write?_along h
    rw [valueAt_of_get? hq] at hroom hw
    cases s with
    | key name => exact ⟨name, fields.insert name d, rfl, hw, Entries.keys_insert fields name d⟩
    | index i => cases hroom
  arrays q s r items hp hq := by
    subst hp
    obtain ⟨c, d, hroom, hw⟩ := get?_of_write?_along h
    rw [valueAt_of_get? hq] at hroom hw
    cases s with
    | key name => cases hroom
    | index i => exact ⟨items.set i.toNat d, hw, List.length_set⟩
  made q s r hp hq := by
    subst hp
    obtain ⟨c, d, hroom, hw⟩ := get?_of_write?_along h
    rw [hq] at hroom hw
    cases s with
    | key name => exact ⟨name, Entries.empty.insert name d, rfl, hw, rfl⟩
    | index i => cases hroom

/-- **A write touches only what it addresses.** -/
theorem set_touchesOnly (h : (v.setInPlace p x).2.1 = true) : TouchesOnly v (v.set p x) p x := by
  rw [reached_setInPlace] at h
  obtain ⟨w, hw⟩ := Option.isSome_iff_exists.mp h
  rw [set_of_write? hw]
  exact touchesOnly_of_write? hw

/-- The write passes an object, an array and `null`, and makes an object. -/
theorem set_touchesOnly_below_null :
    ((Value.object ⟨[("user", .string "Ana"), ("list", .array [.int 1, .null])]⟩).setInPlace
      [.key "list", .index 1, .key "a", .key "b"] (.bool true)).2.1 = true ∧
    TouchesOnly (.object ⟨[("user", .string "Ana"), ("list", .array [.int 1, .null])]⟩)
      ((Value.object ⟨[("user", .string "Ana"), ("list", .array [.int 1, .null])]⟩).set
        [.key "list", .index 1, .key "a", .key "b"] (.bool true))
      [.key "list", .index 1, .key "a", .key "b"] (.bool true) :=
  ⟨rfl, set_touchesOnly rfl⟩

end DataBinding.Value
