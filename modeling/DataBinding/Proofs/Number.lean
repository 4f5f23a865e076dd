import DataBinding.Number
import Mathlib

/-!
# Integer arithmetic is exact

A checked operation on integers never breaks off: it does the plain one only where that has a
result. So its result is the exact one, or there is none.

* `toInt64?_eq_some_iff`, `positions_ofInt?_eq_some_iff`: the integers that 64 bits hold.
* `Integers.checked_eq`, `Integers.checked_eq_some_iff`: what a checked operation gives.
* `Number.Steady`: numbers are computed with without breaking off.
* `Number.exact_add`, `Number.exact_sub`, `Number.exact_mul`, `Number.div_int_iff`: the result of
  two integers is the one of their values, or there is none; nothing is divided by zero.
-/

namespace DataBinding

theorem toInt64?_toInt (n : Int64) : toInt64? n.toInt = some n := by
  rw [toInt64?, if_pos ⟨n.minValue_le_toInt, n.toInt_le⟩, Int64.ofInt_toInt]

theorem toInt64?_eq_some_iff {n : Int} {i : Int64} : toInt64? n = some i ↔ i.toInt = n := by
  constructor
  · intro h
    unfold toInt64? at h
    split at h
    · rename_i hrange
      obtain rfl := Option.some.inj h
      exact Int64.toInt_ofInt_of_le hrange.1 (Int.lt_add_one_of_le hrange.2)
    · cases h
  · rintro rfl
    exact toInt64?_toInt i

theorem positions_ofInt?_eq_some_iff {n : Int} {i : Nat} :
    positions.ofInt? n = some i ↔ (i : Int) = n ∧ i < UInt64.size := by
  change (if 0 ≤ n ∧ n < UInt64.size then some n.toNat else none) = some i ↔ _
  rw [Option.ite_none_right_eq_some, Option.some.injEq]
  omega

/-! ## Integers of limited size -/

namespace Integers

variable {α : Type} (t : Integers α)

/-- **A checked operation does not break off**, and gives the exact result where there is one. -/
theorem checked_eq (op : IntOp) (a b : α) : t.checked op a b =
    .ok (if op = .div ∧ t.value b = 0 then none
      else t.ofInt? (op.exact (t.value a) (t.value b))) := by
  by_cases hzero : op = .div ∧ t.value b = 0
  · have hallows : t.allows op a b = false := by simp [allows, hzero]
    rw [checked, hallows, if_pos hzero]
    rfl
  rw [if_neg hzero]
  cases hresult : t.ofInt? (op.exact (t.value a) (t.value b)) with
  | none =>
    have hallows : t.allows op a b = false := by simp [allows, hresult]
    rw [checked, hallows]
    rfl
  | some c =>
    have hallows : t.allows op a b = true := by
      simpa [allows, hresult] using not_and_or.mp hzero
    rw [checked, if_pos hallows, plain, if_neg hzero, hresult]
    rfl

/-- Nothing but the exact result is given. -/
theorem checked_eq_some_iff {op : IntOp} {a b c : α} : t.checked op a b = .ok (some c) ↔
    ¬ (op = .div ∧ t.value b = 0) ∧ t.ofInt? (op.exact (t.value a) (t.value b)) = some c := by
  rw [t.checked_eq, Except.ok.injEq, Option.ite_none_left_eq_some]

end Integers

/-! ## Numbers -/

namespace Number

/-- The computation never breaks off. -/
def Steady (op : Number → Number → Guarded (Option Number)) : Prop :=
  ∀ a b, op a b = .ok (result (op a b))

theorem eq_ok_result {r : Guarded (Option Number)} {n : Option Number} (h : r = .ok n) :
    r = .ok (result r) := by
  rw [h]
  cases n <;> rfl

theorem checked_int (op : IntOp) (onDoubles : Float → Float → Float) (a b : Int64) :
    checked op onDoubles (.int a) (.int b) = .ok ((if op = .div ∧ b.toInt = 0 then none
      else toInt64? (op.exact a.toInt b.toInt)).map .int) := by
  rw [checked, signed.checked_eq]
  rfl

theorem steady_checked (op : IntOp) (onDoubles : Float → Float → Float) :
    Steady (checked op onDoubles) := by
  rintro (a | x) (b | y)
  · exact eq_ok_result (checked_int ..)
  all_goals exact eq_ok_result rfl

theorem steady_checkedAdd : Steady checkedAdd :=
  steady_checked _ _

theorem steady_checkedSub : Steady checkedSub :=
  steady_checked _ _

theorem steady_checkedMul : Steady checkedMul :=
  steady_checked _ _

theorem steady_checkedDiv : Steady checkedDiv := by
  intro a b
  by_cases hb : b.isZero = true
  · exact eq_ok_result (if_pos hb)
  · exact eq_ok_result ((if_neg hb).trans (steady_checked ..))

/-- On integers the operation has the result of their values, if 64 bits hold it, and else none. -/
def Exact (op : Number → Number → Option Number) (onInts : Int → Int → Int) : Prop :=
  ∀ a b r, op (.int a) (.int b) = some r ↔ ∃ c, r = .int c ∧ c.toInt = onInts a.toInt b.toInt

theorem result_ok (n : Option Number) : result (.ok n) = n := by
  cases n <;> rfl

theorem result_checked_eq_some_iff {op : IntOp} {onDoubles : Float → Float → Float} {a b : Int64}
    {r : Number} (h : ¬ (op = .div ∧ b.toInt = 0)) :
    result (checked op onDoubles (.int a) (.int b)) = some r ↔
      ∃ c, r = .int c ∧ c.toInt = op.exact a.toInt b.toInt := by
  rw [checked_int, result_ok, if_neg h, Option.map_eq_some_iff]
  refine exists_congr fun c => ?_
  rw [toInt64?_eq_some_iff, and_comm, eq_comm (a := r)]

theorem exact_add : Exact add (· + ·) :=
  fun _ _ _ => result_checked_eq_some_iff (by simp)

theorem exact_sub : Exact sub (· - ·) :=
  fun _ _ _ => result_checked_eq_some_iff (by simp)

theorem exact_mul : Exact mul (· * ·) :=
  fun _ _ _ => result_checked_eq_some_iff (by simp)

/-- Integers are divided toward zero, by integers other than zero. -/
theorem div_int_iff (a b : Int64) (r : Number) : (int a).div (.int b) = some r ↔
    b ≠ 0 ∧ ∃ c, r = .int c ∧ c.toInt = a.toInt.tdiv b.toInt := by
  by_cases hb : b = 0
  · rw [div, checkedDiv, if_pos (by simpa [isZero] using hb), result_ok]
    simp [hb]
  · have hzero : b.toInt ≠ 0 := fun h => hb (Int64.toInt_inj.mp h)
    rw [div, checkedDiv, if_neg (by simpa [isZero] using hb),
      result_checked_eq_some_iff (fun h => hzero h.2)]
    exact (and_iff_right hb).symm

end Number

end DataBinding
