import DataBinding.Decimal.Shortest
import DataBinding.Proofs.Decimal.Nearest

/-!
# The shortest decimal reads back

* `Decimal.ofFloat_value`: the decimal of a double is equal to it.
* `Decimal.shortest_toFloat`: the shortest decimal of a positive double reads back as it.
* `Decimal.shortest_abs`: so does that of the magnitude of any finite double, with the sign in front.
-/

namespace DataBinding

open Float.Model Float.Model.UnpackedFloat Double

namespace Decimal

variable {d d' : Decimal} {x y : Float} {m : ℕ} {e : ℤ} {s : Sign}

/-! ## Decimals of doubles -/

/-- The value decides the double. -/
theorem toFloat_congr (h : d.value = d'.value) : d.toFloat = d'.toFloat := by
  rw [toFloat_eq, toFloat_eq, h]

theorem value_binary (m : ℕ) (e : ℤ) :
    (if 0 ≤ e then (⟨m * Nat.pow 2 e.toNat, 0⟩ : Decimal)
      else ⟨m * Nat.pow 5 (-e).toNat, e⟩).value = m * 2 ^ e := by
  split
  · rename_i hnonneg
    obtain ⟨k, rfl⟩ := Int.eq_ofNat_of_zero_le hnonneg
    change ((m * 2 ^ k : ℕ) : ℚ) * 10 ^ (0 : ℤ) = m * 2 ^ (k : ℤ)
    push_cast
    rw [mul_one, zpow_natCast]
  · rename_i hneg
    obtain ⟨k, rfl⟩ : ∃ k : ℕ, e = -k := ⟨e.natAbs, by omega⟩
    have hk : (- -(k : ℤ)).toNat = k := by omega
    rw [hk]
    change ((m * 5 ^ k : ℕ) : ℚ) * 10 ^ (-k : ℤ) = m * 2 ^ (-k : ℤ)
    have hten : (10 : ℚ) = 5 * 2 := by norm_num
    push_cast
    rw [zpow_neg, zpow_neg, zpow_natCast, zpow_natCast, hten, mul_pow]
    field_simp

/-- **The decimal of a double is equal to it.** -/
theorem ofFloat_value {hp : 0 < m} (h : x.toModel.unpack = .finite s m e hp) :
    (ofFloat x).value = m * 2 ^ e := by
  obtain ⟨s', E, M, hbits, hparts⟩ := exists_parts x.toModel
  have hbits : x.toBits.toNat = _ := hbits
  have hE : E.toNat < 2 ^ 11 := E.isLt
  have hM : M.toNat < 2 ^ 52 := M.isLt
  have hfraction : x.toBits.toNat % Nat.pow 2 52 = M.toNat := by
    change _ % 2 ^ 52 = _
    omega
  have hbiased : x.toBits.toNat / Nat.pow 2 52 % Nat.pow 2 11 = E.toNat := by
    change _ / 2 ^ 52 % 2 ^ 11 = _
    omega
  rw [hparts] at h
  rw [ofFloat, ← value_binary]
  simp only [hfraction, hbiased]
  rw [ofParts] at h
  split at h
  · split at h <;> cases h
  · split at h
    · rename_i hfirst
      split at h
      · cases h
        have hzero : E.toNat = 0 := congrArg BitVec.toNat hfirst
        simp only [hzero, if_true]
      · cases h
    · rename_i hfirst
      cases h
      have hne : E.toNat ≠ 0 := fun h => hfirst (BitVec.eq_of_toNat_eq h)
      simp only [hne, if_false]
      rfl

theorem stripZeros_value (d : Decimal) : d.stripZeros.value = d.value := by
  fun_induction stripZeros d with
  | case1 d hzero => simp [Decimal.value, hzero]
  | case2 d hne hmod ih =>
    have hten : (d.digits : ℚ) = (d.digits / 10 : ℕ) * 10 := by
      exact_mod_cast (Nat.div_mul_cancel (Nat.dvd_of_mod_eq_zero hmod)).symm
    rw [ih, Decimal.value, Decimal.value, hten, zpow_add_one₀ (by norm_num)]
    ring
  | case3 => rfl

/-! ## The shortest decimal -/

theorem toFloat_of_readsBack {hp : 0 < m} (hx : x.toModel.unpack = .finite .positive m e hp)
    (h : d.readsBack x = true) : d.toFloat = x := by
  have hbeq : d.toFloat.toModel.unpack.beq x.toModel.unpack = true := h
  rw [beq_iff_ne_notANumber_and_eq, hx] at hbeq
  have hunpack : d.toFloat.toModel.unpack = x.toModel.unpack := by simpa [hx] using hbeq.2.2
  have hmodel : d.toFloat.toModel = x.toModel := by
    rw [← pack_unpack_model d.toFloat.toModel, hunpack, pack_unpack_model]
  exact congrArg Float.ofModel hmodel

theorem shortest_toFloat {tie : Tie} {hp : 0 < m} (hx : x.toModel.unpack = .finite .positive m e hp) :
    (shortest tie x).toFloat = x := by
  rw [shortest, toFloat_congr (stripZeros_value _)]
  cases hfound : (List.range 17).findSome? fun n => ((ofFloat x).neighbours
      ((Nat.toDigits 10 (ofFloat x).digits).length - (n + 1)) tie).find? (·.readsBack x) with
  | none =>
    rw [Option.getD_none, toFloat_eq, ofFloat_value hx, nearest_canonical (canonical_of_unpack hx),
      ← hx, pack_unpack_model]
  | some d =>
    obtain ⟨n, -, hn⟩ := List.exists_of_findSome?_eq_some hfound
    have hreads := List.find?_some hn
    exact toFloat_of_readsBack hx hreads

/-! ## Signs -/

theorem sign_of_ofParts {s' : Sign} {E : BitVec 11} {M : BitVec 52} {hp : 0 < m}
    (h : ofParts s' E M = .finite s m e hp) : s' = s := by
  rw [ofParts] at h
  split at h
  · split at h <;> cases h
  · split at h
    · split at h <;> cases h
      rfl
    · cases h
      rfl

theorem signBit_iff {hp : 0 < m} (h : x.toModel.unpack = .finite s m e hp) :
    x.toBits >>> 63 = 1 ↔ s = .negative := by
  obtain ⟨s', E, M, hbits, hparts⟩ := exists_parts x.toModel
  obtain rfl := sign_of_ofParts (hparts.symm.trans h)
  have hE : E.toNat < 2 ^ 11 := E.isLt
  have hM : M.toNat < 2 ^ 52 := M.isLt
  have hbits : x.toBits.toNat = _ := hbits
  have htoNat : (x.toBits >>> 63).toNat = s'.toBitVec.toNat := by
    rw [UInt64.toNat_shiftRight, hbits, Nat.shiftRight_eq_div_pow]
    change _ / 2 ^ 63 = _
    omega
  rw [← UInt64.toNat_inj, htoNat]
  cases s' with
  | positive => exact iff_of_false (by decide) Sign.noConfusion
  | negative => exact iff_of_true rfl rfl

/-- **A finite double is its sign and the double that its shortest decimal reads back as.** -/
theorem shortest_abs (tie : Tie) (h : x.isFinite = true) :
    (if x.toBits >>> 63 = 1 then -(shortest tie x.abs).toFloat
      else (shortest tie x.abs).toFloat) = x := by
  have hx : Float.ofModel (.pack x.toModel.unpack) = x := by rw [pack_unpack_model]
  have hfinite : x.toModel.unpack.isFinite = true := h
  cases hunpack : x.toModel.unpack with
  | notANumber =>
    rw [hunpack] at hfinite
    cases hfinite
  | infinity s =>
    rw [hunpack] at hfinite
    cases hfinite
  | zero s =>
    rw [hunpack] at hx
    subst hx
    cases tie <;> cases s <;> decide +kernel
  | finite s m e hp =>
    have habs : x.abs = .ofModel (.pack (.finite .positive m e hp)) := by
      change Float.ofModel (.pack x.toModel.unpack.abs) = _
      rw [hunpack]
      rfl
    have hunpackAbs : x.abs.toModel.unpack = .finite .positive m e hp := by
      rw [habs, unpack_pack .positive (canonical_of_unpack hunpack)]
    rw [shortest_toFloat hunpackAbs]
    cases s with
    | positive =>
      have hbit : ¬ x.toBits >>> 63 = 1 := fun hbit => Sign.noConfusion ((signBit_iff hunpack).mp hbit)
      rw [if_neg hbit, habs, ← hunpack, hx]
    | negative =>
      have hneg : -x.abs = .ofModel (.pack (.finite .negative m e hp)) := by
        change Float.ofModel (.pack x.abs.toModel.unpack.neg) = _
        rw [hunpackAbs]
        rfl
      rw [if_pos ((signBit_iff hunpack).mpr rfl), hneg, ← hunpack, hx]

end Decimal

end DataBinding
