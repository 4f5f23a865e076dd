import DataBinding.Proofs.Value.Writes

/-!
# Places inside a value

A path can be followed in parts: what lies behind `p ++ q` lies behind `q` in what lies behind `p`,
and a write there is a write at `q` into what lies behind `p`, put back at `p`. What lies behind a
path that leads nowhere counts as `null` for this, which is right for writes too: they make objects
there as they do below `null`.

Where something is there already a place can be reached in three ways, by `Value.get?`, by
`Value.focus?` and by a write, and they agree.

* `get?_append`, `valueAt_append`, `write?_append`: paths in parts.
* `setInPlace_append`: all of it together, about the write in place.
* `focus?_cons`: a place by the first step that leads to it.
* `focus?_value`, `write?_of_focus?`, `replace_value`: what is at a place and what is put there.
* `focus?_agrees`: the three ways to a place agree.
-/

namespace DataBinding.Value

variable {v w x c : Value} {p q : Path} {s : Step}

/-! ## The write in place -/

theorem reached_setInPlace (v : Value) (p : Path) (x : Value) :
    (v.setInPlace p x).2.1 = (v.write? p x).isSome := by
  rw [setInPlace]
  cases v.write? p x <;> rfl

theorem setInPlace_of_write? (h : v.write? p x = some w) : v.setInPlace p x = (w, true, []) := by
  rw [setInPlace, h]

theorem set_of_write? (h : v.write? p x = some w) : v.set p x = w := by
  rw [set, h, Option.getD_some]

/-- Whether a write is possible does not depend on what is written. -/
theorem isSome_write?_congr (v : Value) (p : Path) (x y : Value) :
    (v.write? p x).isSome = (v.write? p y).isSome := by
  rw [isSome_write?, isSome_write?]

/-! ## Paths in parts -/

theorem get?_append (v : Value) (p q : Path) : v.get? (p ++ q) = (v.get? p).bind (·.get? q) := by
  induction p generalizing v with
  | nil => rfl
  | cons s p ih =>
    rw [List.cons_append, get?, get?, Option.bind_assoc]
    exact congrArg _ (funext fun c => ih c)

theorem get?_null_cons (s : Step) (p : Path) : Value.null.get? (s :: p) = none := by
  cases s <;> rfl

theorem valueAt_null (p : Path) : Value.null.valueAt p = .null := by
  cases p with
  | nil => rfl
  | cons s p => rw [valueAt, get?_null_cons, Option.getD_none]

theorem valueAt_of_get? (h : v.get? p = some c) : v.valueAt p = c := by
  rw [valueAt, h, Option.getD_some]

theorem valueAt_append (v : Value) (p q : Path) :
    v.valueAt (p ++ q) = (v.valueAt p).valueAt q := by
  rw [valueAt, get?_append]
  cases hp : v.get? p with
  | none =>
    rw [valueAt.eq_1 v p, hp, Option.getD_none, valueAt_null]
    rfl
  | some c =>
    rw [valueAt_of_get? hp]
    rfl

theorem child?_of_room? (h : v.room? s = some c) :
    v.child? s = some c ∨ v.child? s = none ∧ c = .null := by
  cases hs : v.child? s with
  | some c' => exact .inl ((room?_of_child? hs).symm.trans h)
  | none =>
    obtain ⟨-, -, hnull⟩ | ⟨-, hnone⟩ := room?_of_child?_eq_none hs
    · exact .inr ⟨rfl, Option.some.inj (h.symm.trans hnull)⟩
    · cases h.symm.trans hnone

/-- A step that a write can take leads to what is read there, `null` for nothing. -/
theorem valueAt_cons_of_room? (h : v.room? s = some c) (p : Path) :
    v.valueAt (s :: p) = c.valueAt p := by
  rw [valueAt, get?]
  obtain hs | ⟨hs, rfl⟩ := child?_of_room? h
  · rw [hs, Option.bind_some]
    rfl
  · rw [hs, Option.bind_none, valueAt_null]
    rfl

/-- To write behind `p ++ q` is to write behind `q` into what is behind `p`, and to put that back. -/
theorem write?_append (v : Value) (p q : Path) (x : Value) :
    v.write? (p ++ q) x = ((v.valueAt p).write? q x).bind (v.write? p) := by
  induction p generalizing v with
  | nil => exact (Option.bind_fun_some _).symm
  | cons s p ih =>
    rw [List.cons_append, write?_cons]
    cases hroom : v.room? s with
    | none =>
      have hnone : v.write? (s :: p) = fun _ => none := funext fun d => by
        rw [write?_cons, hroom, Option.bind_none]
      rw [hnone, Option.bind_none, Option.bind_fun_none]
    | some c =>
      have hdown : v.write? (s :: p) = fun d => (c.write? p d).map (v.put s) := funext fun d => by
        rw [write?_cons, hroom, Option.bind_some]
      rw [hdown, Option.bind_some, ih, valueAt_cons_of_room? hroom, Option.map_bind]
      rfl

/-- **Access follows paths in parts.** Reading behind `p ++ q` reads behind `q` what is behind `p`,
absent or `null` included. A write there takes place exactly if the write behind `q` into what is
behind `p` does, and a write behind `p`, of whatever value; then it leaves the same as the two one
after the other. -/
theorem setInPlace_append (v x y : Value) (p q : Path) :
    v.get? (p ++ q) = (v.get? p).bind (·.get? q) ∧
    v.valueAt (p ++ q) = (v.valueAt p).valueAt q ∧
    ((v.setInPlace (p ++ q) x).2.1 = true ↔
      ((v.valueAt p).setInPlace q x).2.1 = true ∧ (v.setInPlace p y).2.1 = true) ∧
    ((v.setInPlace (p ++ q) x).2.1 = true →
      v.set (p ++ q) x = v.set p ((v.valueAt p).set q x)) := by
  refine ⟨get?_append v p q, valueAt_append v p q, ?possible, ?same⟩
  case possible =>
    simp only [reached_setInPlace, write?_append]
    cases (v.valueAt p).write? q x with
    | none => simp
    | some d =>
      rw [Option.bind_some, isSome_write?_congr v p d y]
      simp
  case same =>
    intro h
    rw [reached_setInPlace] at h
    obtain ⟨w, hw⟩ := Option.isSome_iff_exists.mp h
    obtain ⟨d, hd, hput⟩ := Option.bind_eq_some_iff.mp (write?_append v p q x ▸ hw)
    rw [set_of_write? hw, set_of_write? hd, set_of_write? hput]

/-- The path may part where nothing is yet. -/
theorem setInPlace_append_at_null :
    ((Value.object ⟨[("a", .null)]⟩).setInPlace ([.key "a", .key "b"] ++ [.key "c"])
      (.int 1)).2.1 = true ∧
    (Value.object ⟨[("a", .null)]⟩).set ([.key "a", .key "b"] ++ [.key "c"]) (.int 1) =
      (Value.object ⟨[("a", .null)]⟩).set [.key "a", .key "b"]
        (((Value.object ⟨[("a", .null)]⟩).valueAt [.key "a", .key "b"]).set [.key "c"]
          (.int 1)) :=
  ⟨rfl, (setInPlace_append _ _ .null _ _).2.2.2 rfl⟩

/-! ## Three ways to a place -/

theorem put_of_child? (h : v.child? s = some c) : v.put s c = v := by
  cases v with
  | object fields =>
    cases s with
    | key name => exact congrArg Value.object (Entries.insert_of_get? h)
    | index i => cases h
  | array items =>
    cases s with
    | key name => cases h
    | index i =>
      obtain ⟨hlt, rfl⟩ := List.getElem?_eq_some_iff.mp h
      exact congrArg Value.array (List.set_getElem_self hlt)
  | _ => cases h

/-- A place by the first step that leads to it. -/
theorem focus?_cons (v : Value) (s : Step) (p : Path) :
    v.focus? (s :: p) = (v.child? s).bind fun c =>
      (c.focus? p).map fun f => ⟨f.value, fun y => v.put s (f.replace y)⟩ := by
  cases v with
  | object fields =>
    cases s with
    | key name =>
      rw [focus?, child?]
      cases fields.get? name <;> rfl
    | index i => rfl
  | array items =>
    cases s with
    | key name => rfl
    | index i =>
      rw [focus?, child?]
      cases items[i.toNat]? <;> rfl
  | _ => cases s <;> rfl

theorem focus?_value (v : Value) (p : Path) : (v.focus? p).map Focus.value = v.get? p := by
  induction p generalizing v with
  | nil => rfl
  | cons s p ih =>
    rw [focus?_cons, get?, Option.map_bind]
    refine congrArg _ (funext fun c => ?_)
    rw [Function.comp_apply, Option.map_map, ← ih c]
    rfl

theorem write?_of_focus? {f : Focus} (h : v.focus? p = some f) (x : Value) :
    v.write? p x = some (f.replace x) := by
  induction p generalizing v f with
  | nil =>
    obtain rfl := Option.some.inj h
    rfl
  | cons s p ih =>
    rw [focus?_cons] at h
    obtain ⟨c, hc, hf⟩ := Option.bind_eq_some_iff.mp h
    obtain ⟨g, hg, rfl⟩ := Option.map_eq_some_iff.mp hf
    rw [write?_cons, room?_of_child? hc, Option.bind_some, ih hg, Option.map_some]

/-- To put back what is at a place changes nothing. -/
theorem replace_value {f : Focus} (h : v.focus? p = some f) : f.replace f.value = v := by
  induction p generalizing v f with
  | nil =>
    obtain rfl := Option.some.inj h
    rfl
  | cons s p ih =>
    rw [focus?_cons] at h
    obtain ⟨c, hc, hf⟩ := Option.bind_eq_some_iff.mp h
    obtain ⟨g, hg, rfl⟩ := Option.map_eq_some_iff.mp hf
    simp only [ih hg]
    exact put_of_child? hc

/-- **Three ways to a place agree.** There is a place at the path exactly if something is read
there, and it holds what is read: putting that back changes nothing, and what is put there is read
afterwards. A write in place then takes place, by the check and the pass down too, and leaves what
putting the value at the place leaves. -/
theorem focus?_agrees (v : Value) (p : Path) (x : Value) :
    (v.focus? p).map Focus.value = v.get? p ∧
    ∀ f, v.focus? p = some f →
      f.replace f.value = v ∧
      (f.replace x).get? p = some x ∧
      v.setInPlace p x = (f.replace x, true, []) ∧
      v.setChecked p x = (f.replace x, true, []) := by
  refine ⟨focus?_value v p, fun f hf => ?_⟩
  have hwrite := write?_of_focus? hf x
  have hplace := setInPlace_of_write? hwrite
  exact ⟨replace_value hf, get?_of_write? hwrite, hplace, (setChecked_eq v p x).trans hplace⟩

/-- A place in an array that lies in an object. -/
theorem focus?_agrees_in_array :
    ∃ f, (Value.object ⟨[("a", .null), ("b", .array [.int 1, .int 2])]⟩).focus?
        [.key "b", .index 1] = some f ∧
      f.value = .int 2 ∧
      (Value.object ⟨[("a", .null), ("b", .array [.int 1, .int 2])]⟩).setInPlace
        [.key "b", .index 1] .null = (f.replace .null, true, []) :=
  ⟨_, rfl, rfl, ((focus?_agrees _ _ .null).2 _ rfl).2.2.1⟩

end DataBinding.Value
