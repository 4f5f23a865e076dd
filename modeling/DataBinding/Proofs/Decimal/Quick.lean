import DataBinding.Decimal.Printer
import DataBinding.Proofs.Decimal.Order
import DataBinding.Proofs.Decimal.ReadBack
import DataBinding.Value.Reader

/-!
# Doubles read back quickly

A number in JSON text is turned into a double in two steps, digits first and then the power of ten,
and each step rounds. So a double is not always read back as itself, but it is where its digits and
the power of ten are doubles themselves, for then only the result is rounded.

* `Decimal.written`: the digits and the power of ten as they stand in the text of a double.
* `Decimal.Exact`: both are doubles. `Decimal.scale?_of_exact`: the decimal is read exactly then.
* `Decimal.normal_shortest`: zero has one way to be written.
-/

namespace DataBinding

namespace Double

open Float.Model Float.Model.UnpackedFloat

variable {x : Float} {m : ℕ} {e : ℤ}

theorem isFinite_neg (x : Float) : (-x).isFinite = x.isFinite := by
  change (-x).toModel.unpack.isFinite = x.toModel.unpack.isFinite
  rw [unpack_neg]
  cases x.toModel.unpack <;> rfl

/-- A double is the one nearest to its value. -/
theorem eq_nearest {hp : 0 < m} (h : x.toModel.unpack = .finite .positive m e hp) :
    x = nearest (m * 2 ^ e) := by
  rw [nearest_canonical (canonical_of_unpack h), ← h, pack_unpack_model]

end Double

namespace Decimal

open Double Float.Model Float.Model.UnpackedFloat

variable {d : Decimal} {n k : ℕ}

/-! ## Zero -/

/-- Zero has the exponent zero. -/
def Normal (d : Decimal) : Prop :=
  d.digits = 0 → d = ⟨0, 0⟩

theorem normal_stripZeros (d : Decimal) : d.stripZeros.Normal := by
  intro h
  fun_induction stripZeros d with
  | case1 d hzero => rfl
  | case2 d hne hmod ih => exact ih h
  | case3 d hne hmod => exact absurd h hne

theorem normal_shortest (tie : Tie) (x : Float) : (shortest tie x).Normal :=
  normal_stripZeros _

/-! ## The text of a double -/

/-- The digits and the power of ten as they stand in JSON text. In plain notation a whole number has
a zero behind the point. -/
def written (d : Decimal) : Decimal :=
  if 0 ≤ d.exponent ∧ d.leading ≤ 15 then ⟨d.digits * 10 ^ (d.exponent.toNat + 1), -1⟩ else d

theorem value_written (d : Decimal) : d.written.value = d.value := by
  rw [written]
  split
  · rename_i h
    obtain ⟨k, hk⟩ := Int.eq_ofNat_of_zero_le h.1
    rw [Decimal.value, Decimal.value, hk, Int.toNat_natCast]
    push_cast
    rw [zpow_natCast]
    ring
  · rfl

/-- Zero is written with a digit behind its point. -/
theorem Normal.written (h : d.Normal) : d.written.exponent < 0 ∨ 0 < d.written.digits := by
  rw [Decimal.written]
  split
  · exact .inl (show (-1 : ℤ) < 0 by decide)
  · rename_i hplain
    refine .inr (Nat.pos_of_ne_zero fun hzero => hplain ?_)
    rw [h hzero]
    decide

/-! ## Reading in two steps -/

/-- The digits and the power of ten are doubles. -/
structure Exact (d : Decimal) : Prop where
  digits_lt : d.digits < 2 ^ 53
  exponent_le : d.exponent.natAbs ≤ 22

theorem toFloat_ten_pow (hk : k < Float.exactlyRepresentablePowersOfTen.size) :
    toFloat ⟨1, k⟩ = Float.exactlyRepresentablePowersOfTen[k] := by
  obtain ⟨m, e, hm, hunpack, hvalue⟩ := unpack_powerOfTen hk
  rw [toFloat_eq, Decimal.value, Nat.cast_one, one_mul, zpow_natCast, ← hvalue,
    ← eq_nearest hunpack]

theorem ofNat_eq_toFloat (h : n < 2 ^ 53) : Float.ofNat n = n.toUInt64.toFloat := by
  rw [ofNat_eq_nearest]
  rcases Nat.eq_zero_or_pos n with rfl | hpos
  · rw [Nat.cast_zero, nearest_zero]
    rfl
  · obtain ⟨m, e, hm, hunpack, -, hvalue⟩ := unpack_toFloat hpos h
    rw [← hvalue, ← eq_nearest hunpack]

theorem ofNat_ne_zero (hn : 0 < n) (h : n < 2 ^ 53) : (Float.ofNat n == 0.0) = false := by
  obtain ⟨m, e, hm, hunpack, -, hvalue⟩ := unpack_toFloat hn h
  have hrank : rank n.toUInt64.toFloat = n := by
    rw [rank, hunpack]
    exact hvalue
  have hzero : rank 0.0 = 0 := by
    have hread : (0.0 : Float) = toFloat ⟨0, -1⟩ := rfl
    rw [hread, toFloat_eq, Decimal.value, Nat.cast_zero, zero_mul, nearest_zero, rank_zero]
  rw [Bool.eq_false_iff, ne_eq, beq_iff_rank (isNaN_ofNat n) (by decide), hzero,
    ofNat_eq_toFloat h, hrank]
  exact_mod_cast hn.ne'

/-- **Where the digits and the power of ten are doubles, only the result is rounded.** -/
theorem scale?_of_exact (h : d.Exact) (hd : d.exponent < 0 ∨ 0 < d.digits)
    (hfinite : d.toFloat.isFinite = true) : Json.scale? d.digits d.exponent = some d.toFloat := by
  have hk : d.exponent.natAbs < Float.exactlyRepresentablePowersOfTen.size :=
    Nat.lt_succ_of_le h.exponent_le
  have hread : d.toFloat = if decide (d.exponent < 0) then
      Float.ofNat d.digits / toFloat ⟨1, d.exponent.natAbs⟩
      else Float.ofNat d.digits * toFloat ⟨1, d.exponent.natAbs⟩ := by
    rw [toFloat_ten_pow hk, ofNat_eq_toFloat h.digits_lt, toFloat, Float.ofScientific,
      dif_pos ⟨h.digits_lt, h.exponent_le⟩]
  by_cases hneg : d.exponent < 0
  · rw [decide_eq_true hneg, if_pos rfl] at hread
    have hle : d.exponent.natAbs ≤ 308 := h.exponent_le.trans (by decide)
    rw [Json.scale?, if_pos hneg, Json.shrink, if_pos hle, hread]
  · have habs : (d.exponent.natAbs : ℤ) = d.exponent := Int.natAbs_of_nonneg (not_lt.mp hneg)
    have hle := h.exponent_le
    rw [decide_eq_false hneg, if_neg Bool.false_ne_true, habs] at hread
    rw [hread] at hfinite ⊢
    rw [Json.scale?, if_neg hneg]
    simp only
    rw [ofNat_ne_zero (hd.resolve_left hneg) h.digits_lt, if_neg Bool.false_ne_true,
      if_neg (by omega), if_pos hfinite]

end Decimal

end DataBinding
