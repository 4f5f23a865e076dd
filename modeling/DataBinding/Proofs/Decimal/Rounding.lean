import Mathlib

/-!
# The double nearest to a rational

A positive rational is rounded to a multiple of a power of two, its `place`, that leaves it 53 bits
or makes it subnormal. The rounding of the library works on a mantissa with two more bits, which may
stand for the same rational in many ways; all of them are rounded to the same double.

* `Represents`: the rational that a mantissa with its two more bits stands for.
* `nearest`: the double that a rational is rounded to.
* `nearest_eq`: rounding depends only on the rational that is rounded.
* `roundWithAccuracy_of_shift`: rounding up may carry into one more bit.
-/

namespace DataBinding.Double

open Float.Model Float.Model.UnpackedFloat

/-! ## Mantissas with a round bit and a sticky bit -/

/-- The mantissa is the whole part of the number, and the round bit stands for a half. The sticky
bit says whether anything is left. -/
def Represents (em : ExtendedMantissa) (x : ℚ) : Prop :=
  ∃ rest : ℚ, x = em.mantissa + em.roundBit.toNat / 2 + rest ∧ 0 ≤ rest ∧ rest < 1 / 2 ∧
    (em.stickyBit = true ↔ 0 < rest)

variable {em em' : ExtendedMantissa} {x v : ℚ} {m m' : ℕ} {e e' : ℤ} {a a' : Accuracy}

theorem Represents.bounds (h : Represents em x) : (em.mantissa : ℚ) ≤ x ∧ x < em.mantissa + 1 := by
  obtain ⟨rest, rfl, hle, hlt, -⟩ := h
  have hround : (em.roundBit.toNat : ℚ) ≤ 1 := by exact_mod_cast em.roundBit.toNat_le
  have hround' : (0 : ℚ) ≤ em.roundBit.toNat := Nat.cast_nonneg _
  constructor <;> linarith

/-- Two halves of a number and what is left of it are known from the number. -/
theorem halves_unique {n n' : ℕ} {y y' : ℚ} (h : (n : ℚ) / 2 + y = n' / 2 + y')
    (hy : 0 ≤ y ∧ y < 1 / 2) (hy' : 0 ≤ y' ∧ y' < 1 / 2) : n = n' ∧ y = y' := by
  have hlt : n < n' + 1 := by
    have : (n : ℚ) < n' + 1 := by linarith [hy.1, hy'.2]
    exact_mod_cast this
  have hgt : n' < n + 1 := by
    have : (n' : ℚ) < n + 1 := by linarith [hy.2, hy'.1]
    exact_mod_cast this
  obtain rfl : n = n' := by omega
  exact ⟨rfl, by linarith⟩

/-- A number has one mantissa with these bits. -/
theorem Represents.unique (h : Represents em x) (h' : Represents em' x) : em = em' := by
  obtain ⟨y, hx, hle, hlt, hsticky⟩ := h
  obtain ⟨y', hx', hle', hlt', hsticky'⟩ := h'
  obtain ⟨m, r, s⟩ := em
  obtain ⟨m', r', s'⟩ := em'
  simp only at hx hx' hsticky hsticky'
  have heq : ((2 * m + r.toNat : ℕ) : ℚ) / 2 + y = (2 * m' + r'.toNat : ℕ) / 2 + y' := by
    push_cast
    linarith
  obtain ⟨hhalves, rfl⟩ := halves_unique heq ⟨hle, hlt⟩ ⟨hle', hlt'⟩
  have hr := r.toNat_le
  have hr' := r'.toNat_le
  obtain rfl : m = m' := by omega
  obtain rfl : r = r' := by
    cases r <;> cases r' <;> simp only [Bool.toNat_true, Bool.toNat_false] at hhalves <;>
      first | rfl | omega
  obtain rfl : s = s' := Bool.eq_iff_iff.mpr (hsticky.trans hsticky'.symm)
  rfl

theorem Represents.shiftRightOne (h : Represents em x) : Represents em.shiftRightOne (x / 2) := by
  obtain ⟨y, rfl, hle, hlt, hsticky⟩ := h
  obtain ⟨m, r, s⟩ := em
  have hm : ((m % 2 : ℕ) : ℚ) + 2 * ((m / 2 : ℕ) : ℚ) = m := by exact_mod_cast Nat.mod_add_div m 2
  have hmod : (m % 2 != 0).toNat = m % 2 := by
    rcases Nat.mod_two_eq_zero_or_one m with h | h <;> rw [h] <;> rfl
  refine ⟨r.toNat / 4 + y / 2, ?_, ?_⟩
  · simp only [ExtendedMantissa.shiftRightOne, hmod]
    linarith
  · cases r with
    | false =>
      refine ⟨by simp; linarith, by simp; linarith, ?_⟩
      simpa [ExtendedMantissa.shiftRightOne] using hsticky
    | true =>
      refine ⟨by simp; linarith, by simp; linarith, ?_⟩
      simp [ExtendedMantissa.shiftRightOne]
      linarith

theorem Represents.shiftRight (h : Represents em x) (k : ℕ) :
    Represents (em >>> k) (x / 2 ^ k) := by
  change Represents (k.repeat ExtendedMantissa.shiftRightOne em) _
  induction k with
  | zero => simpa [Nat.repeat] using h
  | succ k ih =>
    rw [Nat.repeat, pow_succ, ← div_div]
    exact ih.shiftRightOne

theorem represents_exact (m : ℕ) : Represents (.ofMantissaAndAccuracy m .exact) m :=
  ⟨0, by simp [ExtendedMantissa.ofMantissaAndAccuracy], le_rfl, by norm_num,
    by simp [ExtendedMantissa.ofMantissaAndAccuracy]⟩

theorem represents_below {f : ℚ} (hpos : 0 < f) (hlt : f < 1 / 2) :
    Represents (.ofMantissaAndAccuracy m (.inexact .lt)) (m + f) :=
  ⟨f, by simp [ExtendedMantissa.ofMantissaAndAccuracy], hpos.le, hlt,
    by simp [ExtendedMantissa.ofMantissaAndAccuracy, hpos]⟩

theorem represents_half : Represents (.ofMantissaAndAccuracy m (.inexact .eq)) (m + 1 / 2) :=
  ⟨0, by simp [ExtendedMantissa.ofMantissaAndAccuracy], le_rfl, by norm_num,
    by simp [ExtendedMantissa.ofMantissaAndAccuracy]⟩

theorem represents_above {f : ℚ} (hgt : 1 / 2 < f) (hlt : f < 1) :
    Represents (.ofMantissaAndAccuracy m (.inexact .gt)) (m + f) :=
  ⟨f - 1 / 2, by simp [ExtendedMantissa.ofMantissaAndAccuracy], by linarith, by linarith,
    by simp [ExtendedMantissa.ofMantissaAndAccuracy]; linarith⟩

/-- How a number lies above its whole part, by what is left of it. -/
def accuracy (f : ℚ) : Accuracy :=
  if f = 0 then .exact else .inexact (compare f (1 / 2))

theorem represents_add {f : ℚ} (hle : 0 ≤ f) (hlt : f < 1) :
    Represents (.ofMantissaAndAccuracy m (accuracy f)) (m + f) := by
  rw [accuracy]
  split
  · rename_i hzero
    simpa [hzero] using represents_exact m
  · rename_i hne
    cases hcompare : compare f (1 / 2) with
    | lt => exact represents_below (lt_of_le_of_ne hle (Ne.symm hne)) (compare_lt_iff_lt.mp hcompare)
    | eq => exact compare_eq_iff_eq.mp hcompare ▸ represents_half
    | gt => exact represents_above (compare_gt_iff_gt.mp hcompare) hlt

theorem represents_floor (hx : 0 ≤ x) :
    Represents (.ofMantissaAndAccuracy ⌊x⌋.toNat (accuracy (Int.fract x))) x := by
  have hcast : ((⌊x⌋.toNat : ℤ) : ℚ) = ⌊x⌋ := by
    rw [Int.toNat_of_nonneg (Int.floor_nonneg.mpr hx)]
  have hfloor : (⌊x⌋.toNat : ℚ) + Int.fract x = x := by
    rw [← Int.cast_natCast, hcast, Int.floor_add_fract]
  have hrep := represents_add (m := ⌊x⌋.toNat) (Int.fract_nonneg x) (Int.fract_lt_one x)
  rwa [hfloor] at hrep

theorem accuracyOfFraction_eq (n : ℕ) {d : ℕ} (hd : 0 < d) :
    accuracyOfFraction n d = accuracy ((n : ℚ) / d) := by
  have hdpos : (0 : ℚ) < d := by exact_mod_cast hd
  have hhalf : (n : ℚ) / d = (2 * n : ℕ) / d / 2 := by
    push_cast
    ring
  have hcompare : compare (2 * n) d = compare ((n : ℚ) / d) (1 / 2) := by
    cases h : compare (2 * n) d with
    | lt =>
      rw [eq_comm, compare_lt_iff_lt, hhalf, div_lt_div_iff_of_pos_right two_pos, div_lt_one hdpos]
      exact_mod_cast Nat.compare_eq_lt.mp h
    | eq => rw [eq_comm, compare_eq_iff_eq, hhalf, Nat.compare_eq_eq.mp h, div_self hdpos.ne']
    | gt =>
      rw [eq_comm, compare_gt_iff_gt, hhalf, div_lt_div_iff_of_pos_right two_pos,
        one_lt_div hdpos]
      exact_mod_cast Nat.compare_eq_gt.mp h
  rw [accuracyOfFraction, accuracy, hcompare]
  simp only [div_eq_zero_iff, Nat.cast_eq_zero, hd.ne', or_false]

/-- What a division leaves is the rest of the quotient. -/
theorem represents_div (n : ℕ) {d : ℕ} (hd : 0 < d) :
    Represents (.ofMantissaAndAccuracy (n / d) (accuracyOfFraction (n % d) d)) ((n : ℚ) / d) := by
  have hdpos : (0 : ℚ) < d := by exact_mod_cast hd
  have hn : (n : ℚ) / d = (n / d : ℕ) + (n % d : ℕ) / d := by
    rw [div_eq_iff hdpos.ne', add_mul, div_mul_cancel₀ _ hdpos.ne']
    exact_mod_cast (Nat.div_add_mod' n d).symm
  rw [hn, accuracyOfFraction_eq _ hd]
  refine represents_add (div_nonneg (Nat.cast_nonneg _) hdpos.le) ?_
  rw [div_lt_one hdpos]
  exact_mod_cast Nat.mod_lt n hd

/-! ## The place of the last bit -/

/-- The exponent of the last bit that a double of about this size has. -/
def place (v : ℚ) : ℤ :=
  max (Int.log 2 v - 52) (-1074)

theorem le_place_iff (hv : 0 < v) : e ≤ place v ↔ (2 : ℚ) ^ (e + 52) ≤ v ∨ e ≤ -1074 := by
  have hlog := Int.zpow_le_iff_le_log (b := 2) (x := e + 52) (by decide) hv
  rw [Nat.cast_ofNat] at hlog
  rw [place, le_max_iff, hlog, le_sub_iff_add_le]

/-- The exponent that the library rounds to is the place of the number, whatever mantissa stands for
it. -/
theorem targetExponent_eq (hv : 0 < v) (h : Represents em (v / 2 ^ e)) (he : e ≤ place v) :
    Format.binary64.targetExponent (totalExponent em.mantissa e) = place v := by
  have hpow : (0 : ℚ) < 2 ^ e := zpow_pos two_pos e
  obtain ⟨hle, hlt⟩ := h.bounds
  rw [le_div_iff₀ hpow] at hle
  rw [div_lt_iff₀ hpow] at hlt
  have htarget : Format.binary64.targetExponent (totalExponent em.mantissa e) =
      max ((em.mantissa.log2 : ℤ) + e - 52) (-1074) := by
    simp only [Format.targetExponent, totalExponent, Format.mantissaBits, Format.minExponent]
    norm_num
    omega
  rw [htarget]
  rcases Nat.eq_zero_or_pos em.mantissa with hzero | hpos
  · -- the number is below the exponent, so only the least place is left
    rw [hzero] at hlt ⊢
    have hlog : Int.log 2 v < e := by
      rw [← Int.lt_zpow_iff_log_lt (by decide) hv]
      simpa using hlt
    rw [place] at he ⊢
    simp
    omega
  · have hlog : Int.log 2 v = em.mantissa.log2 + e := by
      have hadd : ∀ k : ℤ, (2 : ℚ) ^ (k + e) = 2 ^ k * 2 ^ e := fun k => zpow_add₀ two_ne_zero k e
      refine le_antisymm ?_ ?_
      · rw [← Int.lt_add_one_iff, ← Int.lt_zpow_iff_log_lt (by decide) hv, add_right_comm,
          Nat.cast_ofNat, hadd]
        refine lt_of_lt_of_le hlt (mul_le_mul_of_nonneg_right ?_ hpow.le)
        exact_mod_cast Nat.lt_log2_self
      · rw [← Int.zpow_le_iff_le_log (by decide) hv, Nat.cast_ofNat, hadd]
        refine le_trans (mul_le_mul_of_nonneg_right ?_ hpow.le) hle
        exact_mod_cast Nat.log2_self_le hpos.ne'
    rw [place, hlog]

/-- The first shift of the rounding keeps what stands for the number. -/
theorem shiftToTargetExponent_eq (hv : 0 < v)
    (h : Represents (.ofMantissaAndAccuracy m a) (v / 2 ^ e)) (he : e ≤ place v) :
    ∃ em, shiftToTargetExponent Format.binary64 m e a = (em, place v) ∧
      Represents em (v / 2 ^ place v) := by
  have hmantissa : (ExtendedMantissa.ofMantissaAndAccuracy m a).mantissa = m := by
    rcases a with _ | o
    · rfl
    · cases o <;> rfl
  have htarget := targetExponent_eq hv h he
  rw [hmantissa] at htarget
  have hshift : e + (place v - e).toNat = place v := by omega
  refine ⟨ExtendedMantissa.ofMantissaAndAccuracy m a >>> (place v - e).toNat, ?_, ?_⟩
  · rw [shiftToTargetExponent, htarget, shiftToExponent, hshift]
  · have hdiv : v / 2 ^ place v = v / 2 ^ e / 2 ^ (place v - e).toNat := by
      rw [div_div, ← zpow_natCast, ← zpow_add₀ two_ne_zero, hshift]
    rw [hdiv]
    exact h.shiftRight _

/-! ## Rounding -/

/-- The double that a number is rounded to, of two that are equally near the even one; infinite when
the number is too large. -/
def nearest (v : ℚ) : Float :=
  .ofModel (.pack (roundWithAccuracy Format.binary64 .positive ⌊v / 2 ^ place v⌋.toNat (place v)
    (accuracy (Int.fract (v / 2 ^ place v)))))

theorem represents_place (hv : 0 < v) :
    Represents (.ofMantissaAndAccuracy ⌊v / 2 ^ place v⌋.toNat
      (accuracy (Int.fract (v / 2 ^ place v)))) (v / 2 ^ place v) :=
  represents_floor (div_nonneg hv.le (zpow_pos two_pos _).le)

/-- **Rounding depends only on the number that is rounded**, not on the mantissa and the bits that
stand for it. -/
theorem nearest_eq (hv : 0 < v) (h : Represents (.ofMantissaAndAccuracy m a) (v / 2 ^ e))
    (he : e ≤ place v) :
    nearest v = .ofModel (.pack (roundWithAccuracy Format.binary64 .positive m e a)) := by
  obtain ⟨em, hem, hrep⟩ := shiftToTargetExponent_eq hv h he
  obtain ⟨em', hem', hrep'⟩ := shiftToTargetExponent_eq hv (represents_place hv) le_rfl
  rw [nearest, roundWithAccuracy, roundWithAccuracy, hem, hem', hrep.unique hrep']

/-! ## The carry -/

theorem shiftToTargetExponent_of_lt (hm : m < 2 ^ 53) (he : -1074 ≤ e) :
    shiftToTargetExponent Format.binary64 m e .exact = (⟨m, false, false⟩, e) := by
  have hlog : m.log2 ≤ 52 := by
    rcases Nat.eq_zero_or_pos m with rfl | hpos
    · decide
    · exact Nat.lt_succ_iff.mp ((Nat.log2_lt hpos.ne').mpr hm)
  have htarget : Format.binary64.targetExponent (totalExponent m e) - e ≤ 0 := by
    simp only [Format.targetExponent, totalExponent, Format.mantissaBits, Format.minExponent]
    norm_num
    omega
  rw [shiftToTargetExponent, shiftToExponent, Int.toNat_of_nonpos htarget]
  simp only [Nat.cast_zero, add_zero]
  rfl

theorem shiftToTargetExponent_pow (he : -1074 ≤ e) :
    shiftToTargetExponent Format.binary64 (2 ^ 53) e .exact = (⟨2 ^ 52, false, false⟩, e + 1) := by
  have htarget : Format.binary64.targetExponent (totalExponent (2 ^ 53) e) - e = (1 : ℕ) := by
    simp only [Format.targetExponent, totalExponent, Nat.log2_two_pow, Format.mantissaBits,
      Format.minExponent]
    norm_num
    omega
  rw [shiftToTargetExponent, shiftToExponent, htarget, Int.toNat_natCast]
  rfl

theorem roundedMantissa_le (em : ExtendedMantissa) :
    em.mantissa ≤ em.roundedMantissa ∧ em.roundedMantissa ≤ em.mantissa + 1 := by
  obtain ⟨m, r, s⟩ := em
  cases r <;> cases s <;>
    simp [ExtendedMantissa.roundedMantissa, ExtendedMantissa.accuracy,
      Accuracy.roundToNearestEven]
  omega

/-- Rounding up may carry into one more bit, and then the exponent grows. -/
theorem roundWithAccuracy_of_shift {s : Sign}
    (h : shiftToTargetExponent Format.binary64 m e a = (em, e')) (hm : em.mantissa < 2 ^ 53)
    (he : -1074 ≤ e') :
    roundWithAccuracy Format.binary64 s m e a =
      if hz : em.roundedMantissa = 0 then .zero s
      else if em.roundedMantissa < 2 ^ 53 then
        .finite s em.roundedMantissa e' (Nat.pos_of_ne_zero hz)
      else .finite s (2 ^ 52) (e' + 1) (by decide) := by
  have hle := (roundedMantissa_le em).2
  rw [roundWithAccuracy, h]
  dsimp only
  by_cases hlt : em.roundedMantissa < 2 ^ 53
  · rw [shiftToTargetExponent_of_lt hlt he]
    simp only [hlt, if_true]
  · obtain heq : em.roundedMantissa = 2 ^ 53 := by omega
    rw [heq, shiftToTargetExponent_pow he]
    rfl

theorem nearest_zero : nearest 0 = .ofModel (.pack (.zero .positive)) := by
  have hplace : place 0 = -52 := by
    rw [place, Int.log_zero_right]
    decide
  rw [nearest, hplace, zero_div, Int.floor_zero, Int.fract_zero, accuracy, if_pos rfl,
    roundWithAccuracy_of_shift (shiftToTargetExponent_of_lt (by decide) (by decide)) (by decide)
      (by decide)]
  rfl

end DataBinding.Double
