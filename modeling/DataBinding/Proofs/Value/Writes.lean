import DataBinding.Event
import DataBinding.Proofs.Entries

/-!
# Writes at a path

A write at a path takes place altogether or not at all, and whether it takes place can be told from
the value and the path: either something is there already, or the longest part of the path that
leads to something ends at an object or at `null` and only keys are left of it.

A write can be made in two passes. `Value.canWrite` looks whether the path can be reached and
changes nothing. `Value.writeDown` then goes down the path, makes the objects that are missing and
stops where it cannot go on; what it made until then stays. Behind the check it never stops.

* `write?_cons`: a write by its first step.
* `isSome_write?`, `write?_eq_writeDown`: the check and the pass down agree with the write.
* `ends_cons_of_none`, `ends_cons_of_some`: how far a path leads, by its first step.
* `isSome_write?_iff`: which writes are possible.
* `get?_of_write?`, `write?_write?`: a write is read back, and hidden by the next one.
* `setInPlace_atomic`: all of it together, about the write in place.
-/

namespace DataBinding.Value

/-! ## Check first, then write -/

/-- Whether a write can reach the path. -/
def canWrite (v : Value) : Path → Bool
  | [] => true
  | .key name :: p =>
    match v with
    | .object fields =>
      match fields.get? name with
      | some c => c.canWrite p
      | none => p.all Step.isKey
    | .null => p.all Step.isKey
    | _ => false
  | .index i :: p =>
    match v with
    | .array items =>
      match items[i.toNat]? with
      | some c => c.canWrite p
      | none => false
    | _ => false

/-- The value with an empty object in the place of `null`. -/
def opened : Value → Value
  | .null => .object .empty
  | v => v

/-- The value after a pass down the path, and whether the pass came to the end, where it leaves `x`.
Each step first opens what it stands on; a field that is absent is made, with `null` in it. -/
def writeDown (v : Value) : Path → Value → Value × Bool
  | [], x => (x, true)
  | .key name :: p, x =>
    match v.opened with
    | .object fields =>
      let (c, reached) := ((fields.get? name).getD .null).writeDown p x
      (.object (fields.insert name c), reached)
    | w => (w, false)
  | .index i :: p, x =>
    match v.opened with
    | .array items =>
      match items[i.toNat]? with
      | some c =>
        let (c', reached) := c.writeDown p x
        (.array (items.set i.toNat c'), reached)
      | none => (.array items, false)
    | w => (w, false)

/-- A write in two passes: the value after it, whether it took place, and the event if it did
not. -/
def setChecked (v : Value) (p : Path) (x : Value) : Value × Bool × List Event :=
  if v.canWrite p = true then
    let (w, reached) := v.writeDown p x
    (w, reached, [])
  else (v, false, [.writeIgnored p])

/-! ## One step -/

/-- What a write finds behind one step: `null` for a field that can be made. -/
def room? : Value → Step → Option Value
  | .object fields, .key name => some ((fields.get? name).getD .null)
  | .null, .key _ => some .null
  | .array items, .index i => items[i.toNat]?
  | _, _ => none

/-- The value with `c` behind one step. -/
def put : Value → Step → Value → Value
  | .object fields, .key name, c => .object (fields.insert name c)
  | .null, .key name, c => .object (Entries.empty.insert name c)
  | .array items, .index i, c => .array (items.set i.toNat c)
  | v, _, _ => v

/-- Whether a field can be made in the value: it is an object, or `null` and can become one. -/
def Roomy (v : Value) : Prop :=
  v.kind = .object ∨ v.kind = .null

theorem room?_of_child? {v c : Value} {s : Step} (h : v.child? s = some c) :
    v.room? s = some c := by
  cases v <;> cases s <;> simp_all [child?, room?]

/-- Where nothing is behind a step there is room only for a field, which counts as `null`. -/
theorem room?_of_child?_eq_none {v : Value} {s : Step} (h : v.child? s = none) :
    (v.Roomy ∧ s.isKey = true ∧ v.room? s = some .null) ∨
      (¬ (v.Roomy ∧ s.isKey = true) ∧ v.room? s = none) := by
  cases v <;> cases s <;> simp_all [child?, room?, Roomy, kind, Step.isKey]

theorem child?_put {v c : Value} {s : Step} (h : v.room? s = some c) (d : Value) :
    (v.put s d).child? s = some d := by
  cases v with
  | object fields => cases s <;> simp_all [room?, put, child?]
  | null => cases s <;> simp_all [room?, put, child?]
  | array items =>
    cases s with
    | key name => cases h
    | index i =>
      have hlt : i.toNat < items.length := (List.getElem?_eq_some_iff.mp h).1
      simp [put, child?, hlt]
  | _ => cases s <;> cases h

theorem put_put (v : Value) (s : Step) (c d : Value) : (v.put s c).put s d = v.put s d := by
  cases v <;> cases s <;> simp [put, Entries.insert_insert]

/-- A write by its first step. -/
theorem write?_cons (v : Value) (s : Step) (p : Path) (x : Value) :
    v.write? (s :: p) x = (v.room? s).bind fun c => (c.write? p x).map (v.put s) := by
  cases s with
  | key name => cases v <;> rfl
  | index i =>
    cases v with
    | array items =>
      rw [write?, room?]
      cases items[i.toNat]? <;> rfl
    | _ => rfl

/-! ## The check and the pass agree -/

/-- Below `null` all objects can be made, and nothing but objects. -/
theorem isSome_write?_null (p : Path) (x : Value) :
    (Value.null.write? p x).isSome = p.all Step.isKey := by
  induction p with
  | nil => rfl
  | cons s p ih =>
    cases s with
    | key name =>
      rw [write?_cons, List.all_cons, ← ih]
      exact Option.isSome_map
    | index i => rfl

/-- A write is possible exactly if the check passes. -/
theorem isSome_write? (v : Value) (p : Path) (x : Value) :
    (v.write? p x).isSome = v.canWrite p := by
  fun_induction canWrite v p with
  | case1 => rfl
  | case2 name p fields c hc ih =>
    rw [write?_cons, room?, hc, ← ih]
    exact Option.isSome_map
  | case3 name p fields hc =>
    rw [write?_cons, room?, hc, ← isSome_write?_null p x]
    exact Option.isSome_map
  | case4 name p =>
    rw [write?_cons, ← isSome_write?_null p x]
    exact Option.isSome_map
  | case5 v name p hobject hnull =>
    rw [write?_cons]
    cases v <;> simp_all [room?]
  | case6 i p items c hc ih =>
    rw [write?_cons, room?, hc, ← ih]
    exact Option.isSome_map
  | case7 i p items hc =>
    rw [write?_cons, room?, hc]
    rfl
  | case8 v i p harray =>
    rw [write?_cons]
    cases v <;> simp_all [room?]

/-- The pass down the path comes to the end exactly if the write is possible, and leaves then what
the write gives. -/
theorem write?_eq_writeDown (v : Value) (p : Path) (x : Value) :
    v.write? p x =
      match v.writeDown p x with
      | (w, true) => some w
      | (_, false) => none := by
  induction p generalizing v with
  | nil => rfl
  | cons s p ih =>
    rw [write?_cons]
    cases s with
    | key name =>
      cases v with
      | object fields =>
        rw [room?, Option.bind_some, ih, writeDown]
        simp only [opened]
        obtain ⟨d, reached⟩ := ((fields.get? name).getD .null).writeDown p x
        cases reached <;> rfl
      | null =>
        rw [room?, Option.bind_some, ih, writeDown]
        simp only [opened, Entries.get?_empty, Option.getD_none]
        obtain ⟨d, reached⟩ := Value.null.writeDown p x
        cases reached <;> rfl
      | _ => rfl
    | index i =>
      cases v with
      | array items =>
        rw [room?, writeDown]
        simp only [opened]
        obtain hi | ⟨c, hi⟩ := Option.eq_none_or_eq_some items[i.toNat]?
        · simp only [hi]
          rfl
        · simp only [hi, Option.bind_some, ih]
          obtain ⟨d, reached⟩ := c.writeDown p x
          cases reached <;> rfl
      | _ => rfl

/-- Without the check, a pass that does not come to the end leaves the objects that it made. -/
example : (Value.object .empty).writeDown [.key "b", .index 0] (.int 9) =
    (.object ⟨[("b", .object .empty)]⟩, false) := by
  rfl

/-- To check first and to write then is to write in place. -/
theorem setChecked_eq (v : Value) (p : Path) (x : Value) :
    v.setChecked p x = v.setInPlace p x := by
  rw [setChecked, setInPlace, ← isSome_write? v p x, write?_eq_writeDown]
  obtain ⟨w, reached⟩ := v.writeDown p x
  cases reached <;> rfl

/-! ## How far a path leads -/

/-- The longest part `q` of the path that leads to something in `v`: it leads to `c`, and `r` is
left. -/
structure Ends (v : Value) (p q r : Path) (c : Value) : Prop where
  split : p = q ++ r
  found : v.get? q = some c
  longest : ∀ q', q' <+: p → (v.get? q').isSome = true → q'.length ≤ q.length

theorem ends_cons_of_none {v : Value} {s : Step} (h : v.child? s = none) (p : Path) {q r : Path}
    {c : Value} : v.Ends (s :: p) q r c ↔ q = [] ∧ r = s :: p ∧ c = v := by
  have hno : ∀ q', v.get? (s :: q') = none := fun q' => by rw [get?, h, Option.bind_none]
  constructor
  · rintro ⟨hsplit, hfound, -⟩
    cases q with
    | nil => exact ⟨rfl, hsplit.symm, (Option.some.inj hfound).symm⟩
    | cons s' q' =>
      obtain ⟨rfl, -⟩ := List.cons.inj hsplit
      rw [hno] at hfound
      cases hfound
  · rintro ⟨rfl, rfl, rfl⟩
    refine ⟨rfl, rfl, fun q' hprefix hsome => ?_⟩
    cases q' with
    | nil => exact Nat.le_refl 0
    | cons s' q' =>
      obtain ⟨rfl, -⟩ := List.cons_prefix_cons.mp hprefix
      rw [hno] at hsome
      cases hsome

theorem ends_cons_of_some {v w : Value} {s : Step} (h : v.child? s = some w) (p : Path)
    {q r : Path} {c : Value} :
    v.Ends (s :: p) q r c ↔ ∃ q', q = s :: q' ∧ w.Ends p q' r c := by
  have hdown : ∀ q', v.get? (s :: q') = w.get? q' := fun q' => by rw [get?, h, Option.bind_some]
  constructor
  · rintro ⟨hsplit, hfound, hlongest⟩
    cases q with
    | nil =>
      have hone := hlongest [s] ⟨p, rfl⟩ (by rw [hdown]; rfl)
      exact absurd hone (Nat.not_succ_le_zero 0)
    | cons s' q' =>
      obtain ⟨rfl, hsplit'⟩ := List.cons.inj hsplit
      refine ⟨q', rfl, hsplit', by rwa [hdown] at hfound, fun q'' hprefix hsome => ?_⟩
      have hle := hlongest (s :: q'') (List.cons_prefix_cons.mpr ⟨rfl, hprefix⟩)
        (by rwa [hdown])
      exact Nat.le_of_succ_le_succ hle
  · rintro ⟨q', rfl, hsplit, hfound, hlongest⟩
    refine ⟨by rw [hsplit]; rfl, by rwa [hdown], fun q'' hprefix hsome => ?_⟩
    cases q'' with
    | nil => exact Nat.zero_le _
    | cons s' q'' =>
      obtain ⟨rfl, hprefix'⟩ := List.cons_prefix_cons.mp hprefix
      rw [hdown] at hsome
      exact Nat.succ_le_succ (hlongest q'' hprefix' hsome)

/-! ## Which writes are possible -/

/-- A write is possible if something is there, or if the path leads as far as an object or `null`
and goes on by keys only; otherwise it is not. -/
theorem isSome_write?_iff (v : Value) (p : Path) (x : Value) :
    (v.write? p x).isSome = true ↔
      (v.get? p).isSome = true ∨
        ∃ q r c, v.Ends p q r c ∧ c.Roomy ∧ r.all Step.isKey = true := by
  induction p generalizing v with
  | nil => exact ⟨fun _ => .inl rfl, fun _ => rfl⟩
  | cons s p ih =>
    rw [write?_cons, get?]
    cases hs : v.child? s with
    | some w =>
      simp only [room?_of_child? hs, Option.bind_some, Option.isSome_map, ih w,
        ends_cons_of_some hs]
      exact or_congr_right
        ⟨fun ⟨q, r, c, hends, hrest⟩ => ⟨s :: q, r, c, ⟨q, rfl, hends⟩, hrest⟩,
          fun ⟨_, r, c, ⟨q, _, hends⟩, hrest⟩ => ⟨q, r, c, hends, hrest⟩⟩
    | none =>
      -- The path leads no further than to `v` itself, and all of it is left.
      have hends : (∃ q r c, v.Ends (s :: p) q r c ∧ c.Roomy ∧ r.all Step.isKey = true) ↔
          v.Roomy ∧ s.isKey = true ∧ p.all Step.isKey = true := by
        simp only [ends_cons_of_none hs]
        constructor
        · rintro ⟨_, _, _, ⟨rfl, rfl, rfl⟩, hroomy, hkeys⟩
          rw [List.all_cons, Bool.and_eq_true] at hkeys
          exact ⟨hroomy, hkeys⟩
        · rintro ⟨hroomy, hkeys⟩
          refine ⟨[], s :: p, v, ⟨rfl, rfl, rfl⟩, hroomy, ?_⟩
          rwa [List.all_cons, Bool.and_eq_true]
      rw [hends]
      rcases room?_of_child?_eq_none hs with ⟨hroomy, hkey, hroom⟩ | ⟨hnot, hroom⟩
      · rw [hroom, Option.bind_some, Option.isSome_map, isSome_write?_null]
        simp only [hroomy, hkey, Option.bind_none, Option.isSome_none, Bool.false_eq_true,
          true_and, false_or]
      · rw [hroom]
        simp only [Option.bind_none, Option.isSome_none, Bool.false_eq_true, false_or, false_iff]
        exact fun h => hnot ⟨h.1, h.2.1⟩

/-! ## Reading a write back -/

theorem get?_of_write? {v w x : Value} {p : Path} (h : v.write? p x = some w) :
    w.get? p = some x := by
  induction p generalizing v w with
  | nil => rw [get?, ← h, write?]
  | cons s p ih =>
    rw [write?_cons] at h
    obtain ⟨c, hroom, hput⟩ := Option.bind_eq_some_iff.mp h
    obtain ⟨d, hwrite, rfl⟩ := Option.map_eq_some_iff.mp hput
    rw [get?, child?_put hroom, Option.bind_some]
    exact ih hwrite

/-- After a write the same place can be written again, as if it were for the first time. -/
theorem write?_write? {v w x : Value} {p : Path} (h : v.write? p x = some w) (y : Value) :
    w.write? p y = v.write? p y := by
  induction p generalizing v w with
  | nil => rfl
  | cons s p ih =>
    rw [write?_cons] at h
    obtain ⟨c, hroom, hput⟩ := Option.bind_eq_some_iff.mp h
    obtain ⟨d, hwrite, rfl⟩ := Option.map_eq_some_iff.mp hput
    have hback := room?_of_child? (child?_put hroom d)
    rw [write?_cons, write?_cons, hback, hroom, Option.bind_some, Option.bind_some, ih hwrite]
    exact congrArg (Option.map · (c.write? p y)) (funext (put_put v s d))

/-- Of two writes at a path the later one stays, also if neither is possible. -/
theorem set_set_same (v : Value) (p : Path) (x y : Value) : (v.set p x).set p y = v.set p y := by
  cases h : v.write? p x with
  | none => rw [set.eq_1 v p x, h, Option.getD_none]
  | some w =>
    have hy : (v.write? p y).isSome = true := by
      rw [isSome_write?, ← isSome_write? v p x, h, Option.isSome_some]
    rw [set.eq_1 v p x, h, Option.getD_some, set, set, write?_write? h]
    cases hw : v.write? p y with
    | none => rw [hw] at hy; cases hy
    | some z => rfl

/-! ## The write in place -/

/-- **Writes are atomic, exactly feasible and read back.** A write in place reports that it took
place exactly if something is at the path, or if the longest part of the path that leads to
something ends at an object or at `null` and the rest has only keys. If it did not, the value is the
one before, with its fields in their order and no object made; if it did, the value is at the path.
The check and the pass down make the same of every value, and of two writes at a path, possible or
not, the later one stays. -/
theorem setInPlace_atomic (v : Value) (p : Path) (x y : Value) :
    ((v.setInPlace p x).2.1 = true ↔
      (v.get? p).isSome = true ∨
        ∃ q r c, v.Ends p q r c ∧ (c.kind = .object ∨ c.kind = .null) ∧
          r.all Step.isKey = true) ∧
    ((v.setInPlace p x).2.1 = false → (v.setInPlace p x).1 = v) ∧
    ((v.setInPlace p x).2.1 = true → (v.setInPlace p x).1.get? p = some x) ∧
    v.setChecked p x = v.setInPlace p x ∧
    v.set p x = (v.setInPlace p x).1 ∧
    (v.set p x).set p y = v.set p y := by
  have hreached : (v.setInPlace p x).2.1 = (v.write? p x).isSome := by
    rw [setInPlace]
    cases v.write? p x <;> rfl
  refine ⟨?feasible, ?kept, ?read, setChecked_eq v p x, ?whole, set_set_same v p x y⟩
  case feasible =>
    rw [hreached]
    exact isSome_write?_iff v p x
  all_goals
    rw [setInPlace]
    cases h : v.write? p x with
    | none => simp [set, h]
    | some w => simp [set, h, get?_of_write? h]

end DataBinding.Value
