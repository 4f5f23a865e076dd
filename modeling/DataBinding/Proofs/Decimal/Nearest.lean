import DataBinding.Decimal
import DataBinding.Proofs.Decimal.Packing

/-!
# A decimal is read as the double nearest to it

* `Decimal.value`: the number that a decimal is.
* `nearest_canonical`: a double is the one nearest to its own value.
* `Decimal.toFloat_eq`: the double that a decimal is read as is the one nearest to its value.
-/

namespace DataBinding

open Float.Model Float.Model.UnpackedFloat

/-- The number that the decimal is. -/
def Decimal.value (d : Decimal) : ℚ :=
  d.digits * 10 ^ d.exponent

namespace Double

variable {v : ℚ} {m n : ℕ} {e : ℤ}

/-! ## Values of doubles -/

theorem le_place_mul (hm : 0 < m) (h : 2 ^ 52 ≤ m ∨ e ≤ -1074) : e ≤ place (m * 2 ^ e) := by
  have hpow : (0 : ℚ) < 2 ^ e := zpow_pos two_pos e
  rw [le_place_iff (mul_pos (by exact_mod_cast hm) hpow)]
  refine h.imp_left fun h => ?_
  rw [add_comm, zpow_add₀ two_ne_zero]
  exact mul_le_mul_of_nonneg_right (by exact_mod_cast h) hpow.le

theorem represents_value (m : ℕ) (e : ℤ) :
    Represents (.ofMantissaAndAccuracy m .exact) ((m * 2 ^ e : ℚ) / 2 ^ e) := by
  rw [mul_div_cancel_right₀ _ (zpow_pos two_pos e).ne']
  exact represents_exact m

theorem roundWithAccuracy_canonical {s : Sign} (h : Canonical m e) :
    roundWithAccuracy Format.binary64 s m e .exact = .finite s m e h.pos := by
  have hrounded : (⟨m, false, false⟩ : ExtendedMantissa).roundedMantissa = m := rfl
  rw [roundWithAccuracy_of_shift (shiftToTargetExponent_of_lt h.lt h.ge) h.lt h.ge]
  simp only [hrounded, dif_neg h.pos.ne', if_pos h.lt]

/-- **A double is the one nearest to its own value.** -/
theorem nearest_canonical (h : Canonical m e) :
    nearest (m * 2 ^ e) = .ofModel (.pack (.finite .positive m e h.pos)) := by
  have hv : (0 : ℚ) < m * 2 ^ e := mul_pos (by exact_mod_cast h.pos) (zpow_pos two_pos e)
  rw [nearest_eq hv (represents_value m e) (le_place_mul h.pos (h.full.imp_right le_of_eq)),
    roundWithAccuracy_canonical h]

/-! ## Numbers out of range -/

theorem mantissa_lt {em : ExtendedMantissa} (hv : 0 < v)
    (h : Represents em (v / 2 ^ place v)) : em.mantissa < 2 ^ 53 := by
  have hlt : v < 2 ^ (place v + 53) := by
    have hlog := Int.lt_zpow_iff_log_lt (b := 2) (x := place v + 53) (by decide) hv
    rw [Nat.cast_ofNat] at hlog
    rw [hlog, place]
    omega
  have hle := h.bounds.1
  rw [le_div_iff₀ (zpow_pos two_pos _)] at hle
  rw [zpow_add₀ two_ne_zero, mul_comm] at hlt
  have := lt_of_mul_lt_mul_right (lt_of_le_of_lt hle hlt) (zpow_pos two_pos _).le
  exact_mod_cast this

theorem nearest_place (hv : 0 < v) : ∃ em, Represents em (v / 2 ^ place v) ∧
    nearest v = .ofModel (.pack
      (if hz : em.roundedMantissa = 0 then .zero .positive
      else if em.roundedMantissa < 2 ^ 53 then
        .finite .positive em.roundedMantissa (place v) (Nat.pos_of_ne_zero hz)
      else .finite .positive (2 ^ 52) (place v + 1) (by decide))) := by
  obtain ⟨em, hem, hrep⟩ := shiftToTargetExponent_eq hv (represents_place hv) le_rfl
  refine ⟨em, hrep, ?_⟩
  rw [nearest, roundWithAccuracy_of_shift hem (mantissa_lt hv hrep) (le_max_right _ _)]

theorem pack_eq_infinity (hm : 0 < m) (he : 972 ≤ e) :
    Float.Model.pack (.finite .positive m e hm) = Float.Model.pack (.infinity .positive) := by
  have hbiased : 2 ^ 11 ≤ (e + (1023 : ℕ) + (52 : ℕ)).toNat + 1 := by omega
  apply bits_injective
  rw [Float.Model.pack, UInt64.toBitVec_ofBitVec, UnpackedFloat.pack]
  exact if_pos hbiased

theorem nearest_eq_infinity (h : 2 ^ (1024 : ℤ) ≤ v) :
    nearest v = .ofModel (.pack (.infinity .positive)) := by
  have hv : 0 < v := lt_of_lt_of_le (zpow_pos two_pos _) h
  have hle : (2 : ℚ) ^ place v ≤ v := by
    have hlog := Int.zpow_le_iff_le_log (b := 2) (R := ℚ) (x := 1024) (by decide) hv
    have hself := Int.zpow_log_le_self (b := 2) (by decide) hv
    rw [Nat.cast_ofNat] at hlog hself
    refine le_trans (zpow_le_zpow_right₀ one_le_two ?_) hself
    have := hlog.mp h
    rw [place]
    omega
  have hplace : 972 ≤ place v := (le_place_iff hv).mpr (.inl h)
  obtain ⟨em, hrep, hnearest⟩ := nearest_place hv
  have hpos : em.roundedMantissa ≠ 0 := by
    have hone : (1 : ℚ) < em.mantissa + 1 :=
      lt_of_le_of_lt ((one_le_div (zpow_pos two_pos _)).mpr hle) hrep.bounds.2
    have hmantissa : 1 < em.mantissa + 1 := by exact_mod_cast hone
    have := (roundedMantissa_le em).1
    omega
  rw [hnearest, dif_neg hpos]
  split
  · rw [pack_eq_infinity _ hplace]
  · rw [pack_eq_infinity _ (by omega)]

theorem roundedMantissa_eq_zero {em : ExtendedMantissa} {x : ℚ} (h : Represents em x)
    (hx : x < 1 / 2) : em.roundedMantissa = 0 := by
  have hmantissa : em.mantissa < 1 := by
    have : (em.mantissa : ℚ) < 1 := by linarith [h.bounds.1]
    exact_mod_cast this
  obtain ⟨y, rfl, hy, -, -⟩ := h
  obtain ⟨m, r, s⟩ := em
  obtain rfl : m = 0 := Nat.lt_one_iff.mp hmantissa
  cases r with
  | false => cases s <;> rfl
  | true =>
    simp at hx
    linarith

theorem nearest_eq_zero (hv : 0 < v) (h : v < 2 ^ (-1075 : ℤ)) :
    nearest v = .ofModel (.pack (.zero .positive)) := by
  have hplace : place v = -1074 := by
    have hlog := Int.lt_zpow_iff_log_lt (b := 2) (R := ℚ) (x := -1075) (by decide) hv
    rw [Nat.cast_ofNat] at hlog
    have := hlog.mp h
    rw [place]
    omega
  obtain ⟨em, hrep, hnearest⟩ := nearest_place hv
  have hhalf : v / 2 ^ place v < 1 / 2 := by
    rw [hplace, div_lt_iff₀ (zpow_pos two_pos _), one_div, ← zpow_neg_one,
      ← zpow_add₀ two_ne_zero]
    exact h
  rw [hnearest, dif_pos (roundedMantissa_eq_zero hrep hhalf)]

/-! ## Products and quotients -/

/-- The product of two doubles is the double nearest to the product of their values. -/
theorem nearest_mul {m₁ m₂ : ℕ} {e₁ e₂ : ℤ} (h₁ : 0 < m₁) (h₂ : 0 < m₂)
    (he : 2 ^ 52 ≤ m₁ * m₂) :
    nearest (m₁ * 2 ^ e₁ * (m₂ * 2 ^ e₂)) = .ofModel (.pack (UnpackedFloat.mul Format.binary64
      (.finite .positive m₁ e₁ h₁) (.finite .positive m₂ e₂ h₂))) := by
  have hpos : 0 < m₁ * m₂ := Nat.mul_pos h₁ h₂
  have hv : (m₁ * 2 ^ e₁ * (m₂ * 2 ^ e₂) : ℚ) = (m₁ * m₂ : ℕ) * 2 ^ (e₁ + e₂) := by
    rw [zpow_add₀ two_ne_zero]
    push_cast
    ring
  have hvpos : (0 : ℚ) < (m₁ * m₂ : ℕ) * 2 ^ (e₁ + e₂) :=
    mul_pos (by exact_mod_cast hpos) (zpow_pos two_pos _)
  rw [hv, nearest_eq hvpos (represents_value _ _) (le_place_mul hpos (.inl he))]
  rfl

theorem quotient_pos {m₁ m₂ : ℕ} {e₁ e₂ : ℤ} (h₁ : 0 < m₁) (h₂ : 0 < m₂) :
    (0 : ℚ) < m₁ * 2 ^ e₁ / (m₂ * 2 ^ e₂) :=
  div_pos (mul_pos (by exact_mod_cast h₁) (zpow_pos two_pos _))
    (mul_pos (by exact_mod_cast h₂) (zpow_pos two_pos _))

/-- A quotient has its leading bit where the lengths of the mantissas put it, or one place below. -/
theorem le_place_quotient {m₁ m₂ : ℕ} {e₁ e₂ t : ℤ} (h₁ : 0 < m₁) (h₂ : 0 < m₂)
    (ht : t ≤ m₁.log2 + e₁ - (m₂.log2 + e₂) - 53 ∨ t ≤ -1074) :
    t ≤ place (m₁ * 2 ^ e₁ / (m₂ * 2 ^ e₂)) := by
  have hpow : ∀ k : ℤ, (0 : ℚ) < 2 ^ k := fun k => zpow_pos two_pos k
  have hm₂ : (0 : ℚ) < m₂ := by exact_mod_cast h₂
  have hlog₁ : (2 : ℚ) ^ (m₁.log2 : ℤ) ≤ m₁ := by exact_mod_cast Nat.log2_self_le h₁.ne'
  have hlog₂ : (m₂ : ℚ) ≤ 2 ^ ((m₂.log2 : ℤ) + 1) := by exact_mod_cast Nat.lt_log2_self.le
  refine (le_place_iff (quotient_pos h₁ h₂)).mpr (ht.imp_left fun ht => ?_)
  calc (2 : ℚ) ^ (t + 52)
      ≤ 2 ^ ((m₁.log2 : ℤ) + e₁ - (m₂.log2 + 1 + e₂)) :=
        zpow_le_zpow_right₀ one_le_two (by omega)
    _ = 2 ^ (m₁.log2 : ℤ) * 2 ^ e₁ / (2 ^ ((m₂.log2 : ℤ) + 1) * 2 ^ e₂) := by
        rw [zpow_sub₀ two_ne_zero, zpow_add₀ two_ne_zero, zpow_add₀ two_ne_zero (_ + 1)]
    _ ≤ m₁ * 2 ^ e₁ / (m₂ * 2 ^ e₂) :=
        div_le_div₀ (mul_nonneg (Nat.cast_nonneg _) (hpow _).le)
          (mul_le_mul_of_nonneg_right hlog₁ (hpow _).le) (mul_pos hm₂ (hpow _))
          (mul_le_mul_of_nonneg_right hlog₂ (hpow _).le)

theorem represents_quotient {m₁ m₂ k : ℕ} {e₁ e₂ t : ℤ} (h₂ : 0 < m₂) (ht : e₁ - e₂ = t + k) :
    Represents (.ofMantissaAndAccuracy ((m₁ <<< k) / m₂)
      (accuracyOfFraction ((m₁ <<< k) % m₂) m₂)) (m₁ * 2 ^ e₁ / (m₂ * 2 ^ e₂) / 2 ^ t) := by
  have hquotient : (m₁ * 2 ^ e₁ / (m₂ * 2 ^ e₂) / 2 ^ t : ℚ) = (m₁ <<< k : ℕ) / m₂ := by
    have he₁ : e₁ = k + e₂ + t := by omega
    have he₂ : (2 : ℚ) ^ e₂ ≠ 0 := (zpow_pos two_pos _).ne'
    have ht : (2 : ℚ) ^ t ≠ 0 := (zpow_pos two_pos _).ne'
    rw [he₁, zpow_add₀ two_ne_zero, zpow_add₀ two_ne_zero, Nat.shiftLeft_eq, zpow_natCast]
    push_cast
    field_simp
  rw [hquotient]
  exact represents_div _ h₂

/-- The quotient of two doubles is the double nearest to the quotient of their values. -/
theorem nearest_div {m₁ m₂ : ℕ} {e₁ e₂ : ℤ} (h₁ : 0 < m₁) (h₂ : 0 < m₂) :
    nearest (m₁ * 2 ^ e₁ / (m₂ * 2 ^ e₂)) = .ofModel (.pack (UnpackedFloat.div Format.binary64
      (.finite .positive m₁ e₁ h₁) (.finite .positive m₂ e₂ h₂))) := by
  obtain ⟨t, ht⟩ : ∃ t, t = min (e₁ - e₂) (Format.binary64.targetExponent
      (totalExponent m₁ e₁ - totalExponent m₂ e₂)) := ⟨_, rfl⟩
  have htarget : t ≤ m₁.log2 + e₁ - (m₂.log2 + e₂) - 53 ∨ t ≤ -1074 := by
    rw [ht, ← le_max_iff]
    refine le_trans (min_le_right _ _) ?_
    simp only [Format.targetExponent, totalExponent, Format.mantissaBits, Format.minExponent]
    norm_num
    omega
  have hshift : e₁ - e₂ = t + (e₁ - e₂ - t).toNat := by omega
  have hrep := @represents_quotient m₁ m₂ _ _ _ _ h₂ hshift
  rw [nearest_eq (quotient_pos h₁ h₂) hrep (le_place_quotient h₁ h₂ htarget), UnpackedFloat.div,
    divCore, ← ht]
  rfl

/-! ## Whole numbers and powers of ten -/

/-- A whole number below 2 ^ 53 fills 53 bits when it is shifted. -/
theorem canonical_shiftLeft (hn : 0 < n) (h : n < 2 ^ 53) :
    Canonical (n <<< (52 - n.log2)) (-(52 - n.log2 : ℕ)) := by
  have hlog : n.log2 ≤ 52 := Nat.lt_succ_iff.mp ((Nat.log2_lt hn.ne').mpr h)
  have hge : 2 ^ 52 ≤ n <<< (52 - n.log2) := by
    calc 2 ^ 52 = 2 ^ n.log2 * 2 ^ (52 - n.log2) := by rw [← pow_add, Nat.add_sub_cancel' hlog]
      _ ≤ n * 2 ^ (52 - n.log2) := Nat.mul_le_mul_right _ (Nat.log2_self_le hn.ne')
      _ = n <<< (52 - n.log2) := (Nat.shiftLeft_eq _ _).symm
  have hlt : n <<< (52 - n.log2) < 2 ^ 53 := by
    calc n <<< (52 - n.log2) = n * 2 ^ (52 - n.log2) := Nat.shiftLeft_eq _ _
      _ < 2 ^ (n.log2 + 1) * 2 ^ (52 - n.log2) :=
        Nat.mul_lt_mul_of_pos_right Nat.lt_log2_self (Nat.two_pow_pos _)
      _ = 2 ^ 53 := by rw [← pow_add]; congr 1; omega
  exact ⟨by omega, hlt, by omega, by omega, .inl hge⟩

/-- A whole number below 2 ^ 53 is a double. -/
theorem unpack_toFloat (hn : 0 < n) (h : n < 2 ^ 53) : ∃ m e hm,
    n.toUInt64.toFloat.toModel.unpack = .finite .positive m e hm ∧ 2 ^ 52 ≤ m ∧
      (m : ℚ) * 2 ^ e = n := by
  have hc := canonical_shiftLeft hn h
  refine ⟨n <<< (52 - n.log2), -(52 - n.log2 : ℕ), hc.pos, ?_, ?_, ?_⟩
  · have htoNat : n.toUInt64.toNat = n := UInt64.toNat_ofNat_of_lt (Nat.lt_trans h (by decide))
    have htarget : Format.binary64.targetExponent (totalExponent n 0) = n.log2 - 52 := by
      simp only [Format.targetExponent, totalExponent, Format.mantissaBits, Format.minExponent]
      norm_num
      omega
    have hround : UnpackedFloat.ofUInt64 Format.binary64 n.toUInt64 =
        .finite .positive _ (-(52 - n.log2 : ℕ)) hc.pos := by
      rw [UnpackedFloat.ofUInt64, htoNat, UnpackedFloat.ofNat, UnpackedFloat.ofInt,
        UnpackedFloat.normalize, Int.compare_eq_gt.mpr (by omega)]
      simp only [UnpackedFloat.round, Int.toNat_natCast, htarget, decreaseExponent]
      rw [← roundWithAccuracy_canonical hc]
      congr 2
      · omega
      · omega
    rw [UInt64.toFloat, Float.Model.ofUInt64, hround, unpack_pack _ hc]
  · exact hc.full.resolve_right (by omega)
  · rw [Nat.shiftLeft_eq, zpow_neg, zpow_natCast]
    push_cast
    field_simp

/-- The mantissa that a small power of ten has as a double. -/
def tenMantissa (k : ℕ) : ℕ :=
  10 ^ k * 2 ^ 52 / 2 ^ (10 ^ k).log2

theorem tenMantissa_bounds : ∀ k < 23, 0 < tenMantissa k ∧ 2 ^ 52 ≤ tenMantissa k ∧
    tenMantissa k < 2 ^ 53 ∧ (10 ^ k).log2 < 74 ∧
    tenMantissa k * 2 ^ (10 ^ k).log2 = 10 ^ k * 2 ^ 52 := by
  decide

theorem powerOfTen_eq : ∀ k (hk : k < Float.exactlyRepresentablePowersOfTen.size),
    Float.exactlyRepresentablePowersOfTen[k] = .ofModel (.pack
      (.finite .positive (tenMantissa k) ((10 ^ k).log2 - 52) (tenMantissa_bounds k hk).1)) := by
  decide

/-- The powers of ten in the library's table are exact. -/
theorem unpack_powerOfTen {k : ℕ} (hk : k < Float.exactlyRepresentablePowersOfTen.size) :
    ∃ m e hm, (Float.exactlyRepresentablePowersOfTen[k]).toModel.unpack =
      .finite .positive m e hm ∧ (m : ℚ) * 2 ^ e = 10 ^ k := by
  obtain ⟨hpos, hge, hlt, hlog, hvalue⟩ := tenMantissa_bounds k hk
  have hc : Canonical (tenMantissa k) ((10 ^ k).log2 - 52) :=
    ⟨hpos, hlt, by omega, by omega, .inl hge⟩
  refine ⟨tenMantissa k, (10 ^ k).log2 - 52, hpos, ?_, ?_⟩
  · rw [← unpack_pack _ hc]
    exact congrArg (fun x => x.toModel.unpack) (powerOfTen_eq k hk)
  · rw [zpow_sub₀ two_ne_zero, mul_div_assoc', div_eq_iff (zpow_pos two_pos _).ne']
    exact_mod_cast hvalue

end Double

namespace Decimal

open Double

variable {n : ℕ}

theorem mul_eq (x y : Float) : x * y = .ofModel (.pack (UnpackedFloat.mul Format.binary64
    x.toModel.unpack y.toModel.unpack)) :=
  rfl

theorem div_eq (x y : Float) : x / y = .ofModel (.pack (UnpackedFloat.div Format.binary64
    x.toModel.unpack y.toModel.unpack)) :=
  rfl

theorem unpack_toFloat_zero : (0 : ℕ).toUInt64.toFloat.toModel.unpack = .zero .positive := by
  rfl

/-- Few digits and a small exponent: one multiplication or division of doubles. -/
theorem ofScientific_of_small {k : ℕ} (hn : n < 2 ^ 53) (hk : k ≤ 22) (negative : Bool) :
    Float.ofScientific n negative k =
      nearest (if negative then (n : ℚ) / 10 ^ k else n * 10 ^ k) := by
  obtain ⟨m₂, e₂, h₂, hten, hvalue₂⟩ :=
    unpack_powerOfTen (k := k) (by change k < 23; omega)
  rw [Float.ofScientific, dif_pos ⟨hn, hk⟩]
  simp only [mul_eq, div_eq, hten]
  rcases Nat.eq_zero_or_pos n with rfl | hpos
  · rw [unpack_toFloat_zero]
    have hzero : (if negative then ((0 : ℕ) : ℚ) / 10 ^ k else (0 : ℕ) * 10 ^ k) = 0 := by simp
    rw [hzero, nearest_zero]
    cases negative <;> rfl
  · obtain ⟨m₁, e₁, h₁, hunpack, hge, hvalue₁⟩ := unpack_toFloat hpos hn
    rw [hunpack, ← hvalue₁, ← hvalue₂]
    cases negative with
    | true => exact (nearest_div h₁ h₂).symm
    | false => exact (nearest_mul h₁ h₂ (Nat.le_trans hge (Nat.le_mul_of_pos_right _ h₂))).symm

/-- A large exponent takes the number out of range. -/
theorem le_of_lt_exponent {e : ℤ} (hn : 0 < n) (he : 1024 ≤ e) :
    (2 : ℚ) ^ (1024 : ℤ) ≤ n * 10 ^ e := by
  have hone : (1 : ℚ) ≤ n := by exact_mod_cast hn
  calc (2 : ℚ) ^ (1024 : ℤ) ≤ 2 ^ e := zpow_le_zpow_right₀ one_le_two he
    _ ≤ 10 ^ e := zpow_le_zpow_left₀ (by omega) (by norm_num) (by norm_num)
    _ ≤ n * 10 ^ e := le_mul_of_one_le_left (zpow_pos (by norm_num) e).le hone

/-- A small exponent takes the number below the range, whatever its digits. -/
theorem lt_of_exponent_lt {e : ℤ} (he : e < -(2048 + (n.log2 : ℤ))) :
    (n : ℚ) * 10 ^ e < 2 ^ (-1075 : ℤ) := by
  have hlog : (n : ℚ) < 2 ^ ((n.log2 : ℤ) + 1) := by exact_mod_cast Nat.lt_log2_self
  have hten : (10 : ℚ) ^ e ≤ 2 ^ e := by
    obtain ⟨k, rfl⟩ : ∃ k : ℕ, e = -k := ⟨e.natAbs, by omega⟩
    rw [zpow_neg, zpow_neg, zpow_natCast, zpow_natCast]
    exact inv_anti₀ (pow_pos two_pos _) (pow_le_pow_left₀ two_pos.le (by norm_num) _)
  calc (n : ℚ) * 10 ^ e ≤ n * 2 ^ e := mul_le_mul_of_nonneg_left hten (Nat.cast_nonneg n)
    _ < 2 ^ ((n.log2 : ℤ) + 1) * 2 ^ e := mul_lt_mul_of_pos_right hlog (zpow_pos two_pos _)
    _ = 2 ^ ((n.log2 : ℤ) + 1 + e) := (zpow_add₀ two_ne_zero _ _).symm
    _ ≤ 2 ^ (-1075 : ℤ) := zpow_le_zpow_right₀ one_le_two (by omega)

/-- With enough zero bits behind its digits, a product with a power of ten is rounded once. -/
theorem nearest_mul_ten_pow (hn : 0 < n) (k : ℕ) :
    nearest (n * 10 ^ (k : ℤ)) = .ofModel (.pack (UnpackedFloat.mul Format.binary64
      (.finite .positive (n <<< 53) (-53) (Nat.shiftLeft_pos_iff.mpr hn))
      (.finite .positive (10 ^ k) 0 (Nat.pow_pos (by decide))))) := by
  have hvalue : (n : ℚ) * (10 : ℚ) ^ (k : ℤ) =
      (n <<< 53 : ℕ) * 2 ^ (-53 : ℤ) * ((10 ^ k : ℕ) * 2 ^ (0 : ℤ)) := by
    rw [Nat.shiftLeft_eq]
    push_cast
    norm_num
    ring
  have hbits : 2 ^ 52 ≤ n <<< 53 * 10 ^ k := by
    have : n * 2 ^ 53 ≤ n <<< 53 * 10 ^ k := by
      rw [Nat.shiftLeft_eq]
      exact Nat.le_mul_of_pos_right _ (Nat.pow_pos (by decide))
    omega
  rw [hvalue, nearest_mul (Nat.shiftLeft_pos_iff.mpr hn) (Nat.pow_pos (by decide)) hbits]

theorem nearest_div_ten_pow (hn : 0 < n) (k : ℕ) :
    nearest (n * 10 ^ (-k : ℤ)) = .ofModel (.pack (UnpackedFloat.div Format.binary64
      (.finite .positive n 0 hn) (.finite .positive (10 ^ k) 0 (Nat.pow_pos (by decide))))) := by
  have hvalue : (n : ℚ) * (10 : ℚ) ^ (-k : ℤ) =
      n * 2 ^ (0 : ℤ) / ((10 ^ k : ℕ) * 2 ^ (0 : ℤ)) := by
    rw [zpow_neg]
    push_cast
    norm_num
    ring
  rw [hvalue, nearest_div hn (Nat.pow_pos (by decide))]

/-- The general case. The library cuts off exponents that are out of range first. -/
theorem model_ofScientific_eq (n : ℕ) (e : ℤ) :
    Float.ofModel (Float.Model.ofScientific n e) = nearest (n * 10 ^ e) := by
  rw [Float.Model.ofScientific, UnpackedFloat.ofScientific]
  split
  · rename_i hzero
    rw [hzero, Nat.cast_zero, zero_mul, nearest_zero]
  · rename_i hne
    have hn : 0 < n := Nat.pos_of_ne_zero hne
    split
    · rename_i hlarge
      have hlarge : 2048 < e := hlarge
      rw [nearest_eq_infinity (le_of_lt_exponent hn (by omega))]
    · split
      · rename_i hsmall
        have hpos : (0 : ℚ) < n * 10 ^ e :=
          mul_pos (by exact_mod_cast hn) (zpow_pos (by norm_num) e)
        rw [nearest_eq_zero hpos (lt_of_exponent_lt hsmall)]
      · split
        · rename_i hnonneg
          obtain ⟨k, rfl⟩ := Int.eq_ofNat_of_zero_le hnonneg
          exact (nearest_mul_ten_pow hn k).symm
        · rename_i hneg
          obtain ⟨k, rfl⟩ : ∃ k : ℕ, e = -k := ⟨e.natAbs, by omega⟩
          have htoNat : (- -(k : ℤ)).toNat = k := by omega
          rw [nearest_div_ten_pow hn k]
          simp only [htoNat]

/-- **A decimal is read as the double nearest to its value.** -/
theorem toFloat_eq (d : Decimal) : d.toFloat = nearest d.value := by
  rw [Decimal.toFloat, Decimal.value]
  by_cases h : d.digits < 2 ^ 53 ∧ d.exponent.natAbs ≤ 22
  · rw [ofScientific_of_small h.1 h.2]
    congr 1
    by_cases hneg : d.exponent < 0
    · have hexp : d.exponent = -(d.exponent.natAbs : ℤ) := by omega
      rw [if_pos (decide_eq_true hneg), hexp, zpow_neg, zpow_natCast, Int.natAbs_neg,
        Int.natAbs_natCast, div_eq_mul_inv]
    · have hexp : d.exponent = (d.exponent.natAbs : ℤ) := by omega
      rw [if_neg (by simpa using hneg), hexp, zpow_natCast, Int.natAbs_natCast]
  · have hexp : (if decide (d.exponent < 0) = true then Int.negOfNat d.exponent.natAbs
        else Int.ofNat d.exponent.natAbs) = d.exponent := by
      by_cases hneg : d.exponent < 0
      · rw [if_pos (decide_eq_true hneg), Int.negOfNat_eq]
        change -(d.exponent.natAbs : ℤ) = d.exponent
        omega
      · rw [if_neg (by simpa using hneg)]
        exact Int.natAbs_of_nonneg (not_lt.mp hneg)
    rw [Float.ofScientific, dif_neg h]
    simp only [hexp]
    exact model_ofScientific_eq d.digits d.exponent

end Decimal

end DataBinding
