import DataBinding.Proofs.Value.Places
import Mathlib

/-!
# Equality of values

`v == w` compares kind and content: NaN equals itself, the two zeros each other, and the order of
the fields of an object counts for nothing. It is an equivalence, and reading and writing at a path
do not tell equal values apart.

* `sameDouble_iff`: doubles are equal if they are the same up to the sign of zero.
* `beq_iff_same`: `==` by one layer of the two values, `Value.Same`; arrays and objects are equal if
  every index or key finds equal values in both, or none in both.
* `members_induction`: induction on what arrays and objects hold; with it `beq_refl`, `beq_symm` and
  `beq_trans`.
* `object_beq_counted`: for objects with distinct keys it is enough that they have equally many and
  that one has all that the other has.
* `get?_congr`, `write?_congr`: what is read in equal values, and what is left by a write.
* `beq_congruence`: all of it together.
-/

namespace DataBinding.Value

variable {v w x y u : Value}

/-! ## Doubles -/

section Doubles

open Float.Model (UnpackedFloat)

/-- A double without the sign of zero. -/
def unsignedZero : UnpackedFloat → UnpackedFloat
  | .zero _ => .zero .positive
  | x => x

theorem sameDouble_iff (x y : Float) :
    sameDouble x y = true ↔ unsignedZero x.toModel.unpack = unsignedZero y.toModel.unpack := by
  have hsame : sameDouble x y = (x.toModel.unpack.beq y.toModel.unpack ||
      (x.toModel.unpack.isNaN && y.toModel.unpack.isNaN)) := rfl
  rw [hsame, Bool.or_eq_true, Bool.and_eq_true, UnpackedFloat.beq_iff_ne_notANumber_and_eq,
    UnpackedFloat.isNaN_iff, UnpackedFloat.isNaN_iff]
  have hsigns : ∀ s t : UnpackedFloat.Sign,
      s = t ∨ s = .positive ∧ t = .negative ∨ s = .negative ∧ t = .positive := by
    rintro (_ | _) (_ | _) <;> simp
  cases x.toModel.unpack <;> cases y.toModel.unpack <;> simp [unsignedZero, hsigns]

end Doubles

/-! ## One layer of equality -/

/-- Both are absent, or both are there and equal. -/
abbrev Matches : Option Value → Option Value → Prop :=
  Option.Rel fun v w => (v == w) = true

namespace Matches

variable {o o' : Option Value}

theorem some_left (h : Matches (some v) o) : ∃ w, o = some w ∧ (v == w) = true := by
  cases h with
  | some hvw => exact ⟨_, rfl, hvw⟩

theorem isSome_eq (h : Matches o o') : o.isSome = o'.isSome := by
  cases h <;> rfl

theorem getD (h : Matches o o') (hvw : (v == w) = true) : (o.getD v == o'.getD w) = true := by
  cases h with
  | none => exact hvw
  | some hsome => exact hsome

theorem bind (h : Matches o o') {f g : Value → Option Value}
    (hfg : ∀ v w, (v == w) = true → Matches (f v) (g w)) : Matches (o.bind f) (o'.bind g) := by
  cases h with
  | none => exact .none
  | some hsome => exact hfg _ _ hsome

theorem map (h : Matches o o') {f g : Value → Value}
    (hfg : ∀ v w, (v == w) = true → (f v == g w) = true) : Matches (o.map f) (o'.map g) := by
  cases h with
  | none => exact .none
  | some hsome => exact .some (hfg _ _ hsome)

end Matches

theorem matches_iff (o o' : Option Value) :
    Matches o o' ↔ (o.isSome = true ↔ o'.isSome = true) ∧
      ∀ v w, o = some v → o' = some w → (v == w) = true := by
  constructor
  · intro h
    refine ⟨by rw [h.isSome_eq], ?_⟩
    rintro v w rfl rfl
    cases h with
    | some hvw => exact hvw
  · rintro ⟨hsome, hvalues⟩
    cases o with
    | none =>
      cases o' with
      | none => exact .none
      | some w => cases hsome.mpr rfl
    | some v =>
      obtain ⟨w, rfl⟩ := Option.isSome_iff_exists.mp (hsome.mp rfl)
      exact .some (hvalues v w rfl rfl)

/-- One layer of equality: two values of one kind, with the same content or with members that
match. -/
inductive Same : Value → Value → Prop
  | null : Same .null .null
  | bool (b : Bool) : Same (.bool b) (.bool b)
  | int (n : Int64) : Same (.int n) (.int n)
  | double {x y : Float} (h : sameDouble x y = true) : Same (.double x) (.double y)
  | string (s : String) : Same (.string s) (.string s)
  | array {xs ys : List Value} (h : ∀ i : Nat, Matches xs[i]? ys[i]?) : Same (.array xs) (.array ys)
  | object {es fs : Entries Value} (h : ∀ k, Matches (es.get? k) (fs.get? k)) :
    Same (.object es) (.object fs)

theorem beqItems_iff (xs ys : List Value) :
    beqItems xs ys = true ↔ ∀ i : Nat, Matches xs[i]? ys[i]? := by
  induction xs generalizing ys with
  | nil =>
    cases ys with
    | nil => exact ⟨fun _ _ => .none, fun _ => rfl⟩
    | cons y ys => exact ⟨fun h => (by cases h), fun h => nomatch h 0⟩
  | cons x xs ih =>
    cases ys with
    | nil => exact ⟨fun h => (by cases h), fun h => nomatch h 0⟩
    | cons y ys =>
      rw [beqItems, Bool.and_eq_true, ih]
      constructor
      · rintro ⟨hhead, htail⟩ i
        cases i with
        | zero => exact .some hhead
        | succ i => exact htail i
      · intro h
        refine ⟨?_, fun i => h (i + 1)⟩
        cases h 0 with
        | some hhead => exact hhead

theorem beqFields_cons (seen : List String) (k : String) (v : Value)
    (es fs : List (String × Value)) :
    beqFields seen ((k, v) :: es) fs =
      ((seen.contains k || (Entries.find k fs).any (v == ·)) && beqFields (k :: seen) es fs) := by
  rw [beqFields]
  cases Entries.find k fs <;> rfl

theorem beqFields_iff (seen : List String) (es fs : List (String × Value)) :
    beqFields seen es fs = true ↔
      ∀ k ∉ seen, ∀ v, Entries.find k es = some v →
        ∃ w, Entries.find k fs = some w ∧ (v == w) = true := by
  induction es generalizing seen with
  | nil => exact ⟨fun _ _ _ _ h => (by cases h), fun _ => rfl⟩
  | cons e es ih =>
    obtain ⟨k, v⟩ := e
    rw [beqFields_cons, Bool.and_eq_true, Bool.or_eq_true, List.contains_iff_mem,
      Option.any_eq_true, ih]
    constructor
    · rintro ⟨hfirst, hrest⟩ j hj u hu
      by_cases hk : k = j
      · subst hk
        rw [Entries.find, if_pos rfl] at hu
        obtain rfl := Option.some.inj hu
        exact hfirst.resolve_left hj
      · rw [Entries.find, if_neg hk] at hu
        exact hrest j (fun hmem => hj ((List.mem_cons.mp hmem).resolve_left (Ne.symm hk))) u hu
    · intro h
      refine ⟨or_iff_not_imp_left.mpr fun hk => h k hk v (if_pos rfl), fun j hj u hu => ?_⟩
      obtain ⟨hne, hj⟩ := not_or.mp (mt List.mem_cons.mpr hj)
      exact h j hj u ((if_neg (Ne.symm hne)).trans hu)

/-- Every key finds equal values in both objects, or none in both. -/
theorem object_beq_iff (es fs : Entries Value) :
    (Value.object es == Value.object fs) = true ↔ ∀ k, Matches (es.get? k) (fs.get? k) := by
  change beq (.object ⟨es.toList⟩) (.object ⟨fs.toList⟩) = true ↔ _
  rw [beq, Bool.and_eq_true, beqFields_iff, List.all_eq_true]
  constructor
  · rintro ⟨hback, hforth⟩ k
    cases hes : es.get? k with
    | some v =>
      obtain ⟨w, hfs, hvw⟩ := hforth k List.not_mem_nil v hes
      rw [show fs.get? k = some w from hfs]
      exact .some hvw
    | none =>
      cases hfs : fs.get? k with
      | none => exact .none
      | some w =>
        have hsome := hback (k, w) (Entries.mem_of_find hfs)
        rw [show Entries.find k es.toList = none from hes] at hsome
        cases hsome
  · intro h
    constructor
    · intro f hf
      have hkey : (fs.get? f.1).isSome = true :=
        (Entries.find_isSome_iff f.1 fs.toList).mpr (List.mem_map.mpr ⟨f, hf, rfl⟩)
      exact (h f.1).isSome_eq.trans hkey
    · intro k _ v hv
      exact (show Matches (some v) (fs.get? k) from hv ▸ h k).some_left

/-- `==` by one layer of the two values. -/
theorem beq_iff_same (v w : Value) : (v == w) = true ↔ Same v w := by
  change beq v w = true ↔ _
  fun_cases beq v w with
  | case1 => exact iff_of_true rfl .null
  | case2 a b =>
    rw [beq_iff_eq]
    exact ⟨fun h => h ▸ .bool a, fun h => (by cases h; rfl)⟩
  | case3 a b =>
    rw [beq_iff_eq]
    exact ⟨fun h => h ▸ .int a, fun h => (by cases h; rfl)⟩
  | case4 x y =>
    refine ⟨.double, fun h => ?_⟩
    cases h with
    | double hxy => exact hxy
  | case5 s t =>
    rw [beq_iff_eq]
    exact ⟨fun h => h ▸ .string s, fun h => (by cases h; rfl)⟩
  | case6 xs ys =>
    rw [beqItems_iff]
    refine ⟨.array, fun h => ?_⟩
    cases h with
    | array hitems => exact hitems
  | case7 es fs =>
    refine (object_beq_iff ⟨es⟩ ⟨fs⟩).trans ⟨.object, fun h => ?_⟩
    cases h with
    | object hfields => exact hfields
  | case8 v w hnull hbool hint hdouble hstring harray hobject =>
    refine iff_of_false Bool.false_ne_true fun h => ?_
    cases h with
    | null => exact hnull rfl rfl
    | bool b => exact hbool b b rfl rfl
    | int n => exact hint n n rfl rfl
    | double h => exact hdouble _ _ rfl rfl
    | string s => exact hstring s s rfl rfl
    | array h => exact harray _ _ rfl rfl
    | object h => exact hobject _ _ rfl rfl

/-! ## Equality is an equivalence -/

/-- What lies in an array or an object. -/
def members : Value → List Value
  | .array items => items
  | .object fields => fields.toList.map (·.2)
  | _ => []

theorem mem_members_of_index {items : List Value} {i : Nat} (h : items[i]? = some v) :
    v ∈ (Value.array items).members :=
  List.mem_of_getElem? h

theorem mem_members_of_key {fields : Entries Value} {k : String} (h : fields.get? k = some v) :
    v ∈ (Value.object fields).members :=
  List.mem_map.mpr ⟨(k, v), Entries.mem_of_find h, rfl⟩

theorem sizeOf_lt_of_mem_members (h : w ∈ v.members) : sizeOf w < sizeOf v := by
  cases v with
  | array items =>
    have hlt : sizeOf w < sizeOf items := List.sizeOf_lt_of_mem h
    simp only [array.sizeOf_spec]
    omega
  | object fields =>
    obtain ⟨e, he, rfl⟩ := List.mem_map.mp h
    obtain ⟨es⟩ := fields
    obtain ⟨k, w⟩ := e
    have hlt := List.sizeOf_lt_of_mem he
    simp only [object.sizeOf_spec, Entries.mk.sizeOf_spec, Prod.mk.sizeOf_spec] at hlt ⊢
    omega
  | _ => cases h

/-- Induction on what arrays and objects hold. -/
theorem members_induction {motive : Value → Prop}
    (step : ∀ v, (∀ w ∈ v.members, motive w) → motive v) (v : Value) : motive v :=
  step v fun w _ => members_induction step w
termination_by sizeOf v
decreasing_by exact sizeOf_lt_of_mem_members ‹_›

namespace Matches

variable {o o' o'' : Option Value}

theorem refl_of (h : ∀ v, o = some v → (v == v) = true) : Matches o o := by
  cases o with
  | none => exact .none
  | some v => exact .some (h v rfl)

theorem symm_of (h : Matches o o')
    (hsymm : ∀ v, o = some v → ∀ w, (v == w) = true → (w == v) = true) : Matches o' o := by
  cases h with
  | none => exact .none
  | some hvw => exact .some (hsymm _ rfl _ hvw)

theorem trans_of (h : Matches o o') (h' : Matches o' o'')
    (htrans : ∀ u, o = some u → ∀ v w, (u == v) = true → (v == w) = true → (u == w) = true) :
    Matches o o'' := by
  cases h with
  | none => exact h'
  | some huv =>
    obtain ⟨w, rfl, hvw⟩ := h'.some_left
    exact .some (htrans _ rfl _ w huv hvw)

end Matches

theorem beq_refl (v : Value) : (v == v) = true := by
  induction v using members_induction with
  | step v ih =>
    rw [beq_iff_same]
    cases v with
    | null => exact .null
    | bool b => exact .bool b
    | int n => exact .int n
    | double x => exact .double ((sameDouble_iff x x).mpr rfl)
    | string s => exact .string s
    | array items =>
      exact .array fun i => Matches.refl_of fun v hv => ih v (mem_members_of_index hv)
    | object fields =>
      exact .object fun k => Matches.refl_of fun v hv => ih v (mem_members_of_key hv)

theorem beq_symm (h : (v == w) = true) : (w == v) = true := by
  induction v using members_induction generalizing w with
  | step v ih =>
    rw [beq_iff_same] at h ⊢
    cases h with
    | null => exact .null
    | bool b => exact .bool b
    | int n => exact .int n
    | double hxy => exact .double ((sameDouble_iff _ _).mpr ((sameDouble_iff _ _).mp hxy).symm)
    | string s => exact .string s
    | array hitems =>
      exact .array fun i => (hitems i).symm_of fun v hv _ => ih v (mem_members_of_index hv)
    | object hfields =>
      exact .object fun k => (hfields k).symm_of fun v hv _ => ih v (mem_members_of_key hv)

theorem beq_comm (v w : Value) : (v == w) = (w == v) :=
  Bool.eq_iff_iff.mpr ⟨beq_symm, beq_symm⟩

theorem beq_trans (huv : (u == v) = true) (hvw : (v == w) = true) : (u == w) = true := by
  induction u using members_induction generalizing v w with
  | step u ih =>
    rw [beq_iff_same] at huv hvw ⊢
    cases huv with
    | null => exact hvw
    | bool b => exact hvw
    | int n => exact hvw
    | double hxy =>
      cases hvw with
      | double hyz =>
        rw [sameDouble_iff] at hxy hyz
        exact .double ((sameDouble_iff _ _).mpr (hxy.trans hyz))
    | string s => exact hvw
    | array hitems =>
      cases hvw with
      | array hitems' =>
        exact .array fun i => (hitems i).trans_of (hitems' i) fun u hu _ _ =>
          ih u (mem_members_of_index hu)
    | object hfields =>
      cases hvw with
      | object hfields' =>
        exact .object fun k => (hfields k).trans_of (hfields' k) fun u hu _ _ =>
          ih u (mem_members_of_key hu)

/-! ## Objects -/

/-- Two objects are equal if they have the same keys with equal values. -/
theorem object_beq_iff_keys (es fs : Entries Value) :
    (Value.object es == Value.object fs) = true ↔
      (∀ k, k ∈ es.keys ↔ k ∈ fs.keys) ∧
        ∀ k v w, es.get? k = some v → fs.get? k = some w → (v == w) = true := by
  simp only [object_beq_iff, matches_iff, forall_and]
  refine and_congr_left' (forall_congr' fun k => ?_)
  rw [← Entries.contains_iff, ← Entries.contains_iff]
  rfl

/-- For objects with distinct keys it is enough to count the keys, and to find the fields of one in
the other. -/
theorem object_beq_counted {es fs : Entries Value} (hes : es.Distinct) (hfs : fs.Distinct) :
    (Value.object es == Value.object fs) =
      (es.size == fs.size && es.toList.all fun e => (fs.get? e.1).any (e.2 == ·)) := by
  have hsizes : es.size = fs.size ↔ es.keys.length = fs.keys.length := by
    rw [Entries.keys, Entries.keys, List.length_map, List.length_map]
    rfl
  rw [Bool.eq_iff_iff, object_beq_iff_keys, Bool.and_eq_true, beq_iff_eq, hsizes,
    List.all_eq_true]
  constructor
  · rintro ⟨hkeys, hvalues⟩
    refine ⟨((List.perm_ext_iff_of_nodup hes hfs).mpr hkeys).length_eq, fun e he => ?_⟩
    have hmem : e.1 ∈ fs.keys := (hkeys e.1).mp (List.mem_map.mpr ⟨e, he, rfl⟩)
    obtain ⟨w, hw⟩ := Option.isSome_iff_exists.mp ((Entries.contains_iff fs e.1).mpr hmem)
    exact (Option.any_eq_true ..).mpr ⟨w, hw, hvalues e.1 e.2 w (Entries.find_of_mem hes he) hw⟩
  · rintro ⟨hlength, hall⟩
    have hfound : ∀ k v, es.get? k = some v → ∃ w, fs.get? k = some w ∧ (v == w) = true :=
      fun k v hv => (Option.any_eq_true ..).mp (hall (k, v) (Entries.mem_of_find hv))
    have hsubset : es.keys ⊆ fs.keys := fun k hk => by
      rw [← Entries.contains_iff] at hk ⊢
      obtain ⟨v, hv⟩ := Option.isSome_iff_exists.mp hk
      obtain ⟨w, hw, -⟩ := hfound k v hv
      exact Option.isSome_iff_exists.mpr ⟨w, hw⟩
    -- As many distinct keys as there are leave no room for others.
    have hperm : es.keys.Perm fs.keys :=
      (List.subperm_of_subset hes hsubset).perm_of_length_le hlength.ge
    refine ⟨fun k => hperm.mem_iff, fun k v w hv hw => ?_⟩
    obtain ⟨w', hw', hvw⟩ := hfound k v hv
    rwa [Option.some.inj (hw'.symm.trans hw)] at hvw

/-! ## Reading and writing equal values -/

section Congruence

variable {c d : Value} {s : Step}

theorem child?_congr (h : (v == w) = true) (s : Step) : Matches (v.child? s) (w.child? s) := by
  rw [beq_iff_same] at h
  cases h with
  | array hitems =>
    cases s with
    | key name => exact .none
    | index i => exact hitems i.toNat
  | object hfields =>
    cases s with
    | key name => exact hfields name
    | index i => exact .none
  | _ => cases s <;> exact .none

theorem get?_congr (h : (v == w) = true) (p : Path) : Matches (v.get? p) (w.get? p) := by
  induction p generalizing v w with
  | nil => exact .some h
  | cons s p ih => exact (child?_congr h s).bind fun _ _ hchild => ih hchild

theorem room?_congr (h : (v == w) = true) (s : Step) : Matches (v.room? s) (w.room? s) := by
  rw [beq_iff_same] at h
  cases h with
  | null =>
    cases s with
    | key name => exact .some (beq_refl _)
    | index i => exact .none
  | array hitems =>
    cases s with
    | key name => exact .none
    | index i => exact hitems i.toNat
  | object hfields =>
    cases s with
    | key name => exact .some ((hfields name).getD (beq_refl _))
    | index i => exact .none
  | _ => cases s <;> exact .none

theorem insert_matches {es fs : Entries Value} (h : ∀ k, Matches (es.get? k) (fs.get? k))
    (name : String) (hcd : (c == d) = true) (k : String) :
    Matches ((es.insert name c).get? k) ((fs.insert name d).get? k) := by
  by_cases hk : k = name
  · subst hk
    rw [Entries.get?_insert_self, Entries.get?_insert_self]
    exact .some hcd
  · rw [Entries.get?_insert_of_ne es hk, Entries.get?_insert_of_ne fs hk]
    exact h k

theorem set_matches {xs ys : List Value} (h : ∀ i : Nat, Matches xs[i]? ys[i]?) (n : Nat)
    (hcd : (c == d) = true) (i : Nat) : Matches (xs.set n c)[i]? (ys.set n d)[i]? := by
  rw [List.getElem?_set', List.getElem?_set']
  split
  · exact (h i).map fun _ _ _ => hcd
  · exact h i

theorem put_congr (h : (v == w) = true) (s : Step) (hcd : (c == d) = true) :
    (v.put s c == w.put s d) = true := by
  have hsame := (beq_iff_same v w).mp h
  cases hsame with
  | null =>
    cases s with
    | key name => exact (object_beq_iff _ _).mpr (insert_matches (fun _ => .none) name hcd)
    | index i => exact h
  | array hitems =>
    cases s with
    | key name => exact h
    | index i => exact (beq_iff_same _ _).mpr (.array (set_matches hitems i.toNat hcd))
  | object hfields =>
    cases s with
    | key name => exact (object_beq_iff _ _).mpr (insert_matches hfields name hcd)
    | index i => exact h
  | _ => cases s <;> exact h

theorem write?_congr (h : (v == w) = true) (p : Path) (hxy : (x == y) = true) :
    Matches (v.write? p x) (w.write? p y) := by
  induction p generalizing v w with
  | nil => exact .some hxy
  | cons s p ih =>
    rw [write?_cons, write?_cons]
    exact (room?_congr h s).bind fun _ _ hroom => (ih hroom).map fun _ _ => put_congr h s

theorem set_congr (h : (v == w) = true) (p : Path) (hxy : (x == y) = true) :
    (v.set p x == w.set p y) = true :=
  (write?_congr h p hxy).getD h

end Congruence

/-- **Equality of values is an equivalence and a congruence.** It is reflexive, for NaN too,
symmetric and transitive. Objects are equal exactly if they have the same keys with equal values, in
whatever order; where no key comes twice, that is what counting the keys and looking up the fields
of one in the other tells. In equal values a path leads to equal values, or nowhere in both, and
equal values can be written there into both or into neither, which leaves equal values. -/
theorem beq_congruence :
    Equivalence (fun v w : Value => (v == w) = true) ∧
    (∀ es fs : Entries Value, (Value.object es == Value.object fs) = true ↔
      (∀ k, k ∈ es.keys ↔ k ∈ fs.keys) ∧
        ∀ k v w, es.get? k = some v → fs.get? k = some w → (v == w) = true) ∧
    (∀ es fs : Entries Value, es.Distinct → fs.Distinct →
      (Value.object es == Value.object fs) =
        (es.size == fs.size && es.toList.all fun e => (fs.get? e.1).any (e.2 == ·))) ∧
    ∀ v w x y : Value, (v == w) = true → (x == y) = true → ∀ p : Path,
      Matches (v.get? p) (w.get? p) ∧
      (v.setInPlace p x).2.1 = (w.setInPlace p y).2.1 ∧
      (v.set p x == w.set p y) = true := by
  refine ⟨⟨beq_refl, beq_symm, beq_trans⟩, object_beq_iff_keys,
    fun es fs hes hfs => object_beq_counted hes hfs, fun v w x y h hxy p => ⟨get?_congr h p, ?_,
      set_congr h p hxy⟩⟩
  rw [reached_setInPlace, reached_setInPlace, (write?_congr h p hxy).isSome_eq]

/-- Two objects in another order, of which a nested `null` is written through. -/
theorem beq_congruence_of_reordered :
    (Value.object ⟨[("x", .int 1), ("y", .null)]⟩ == .object ⟨[("y", .null), ("x", .int 1)]⟩) =
      true ∧
    ((Value.object ⟨[("x", .int 1), ("y", .null)]⟩).set [.key "y", .key "z"] (.bool true) ==
      (Value.object ⟨[("y", .null), ("x", .int 1)]⟩).set [.key "y", .key "z"] (.bool true)) =
      true :=
  ⟨rfl, (beq_congruence.2.2.2 _ _ _ _ rfl rfl [.key "y", .key "z"]).2.2⟩

end DataBinding.Value
