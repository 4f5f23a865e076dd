import DataBinding.Proofs.Decimal.Nearest

/-!
# The order of doubles

Rounding keeps the order of numbers, and doubles compare as the numbers that they are.

* `Represents.near`: a mantissa is rounded by a half at most, by a half only to an even number.
* `rounded`, `rounded_mono`, `abs_rounded_sub_le`: the number that another one is rounded to, in
  order and with the error made.
* `nearest_cases`: what the double nearest to a number is.
* `rank`: the place of a double among the numbers; `compare_unpack`, `lt_iff_rank`, `beq_iff_rank`:
  doubles other than NaN compare as their ranks.
* `rank_ofInt_mono`: integers as doubles keep their order, though two of them may become one.
-/

namespace DataBinding.Double

open Float.Model Float.Model.UnpackedFloat

variable {em em' : ExtendedMantissa} {x x' v w : ℚ}

/-! ## Rounding to a whole number -/

/-- Nothing is rounded by more than a half, and by a half only to an even number. -/
theorem Represents.near (h : Represents em x) : |(em.roundedMantissa : ℚ) - x| ≤ 1 / 2 ∧
    (|(em.roundedMantissa : ℚ) - x| = 1 / 2 → em.roundedMantissa % 2 = 0) := by
  obtain ⟨rest, rfl, hle, hlt, hsticky⟩ := h
  obtain ⟨m, r, s⟩ := em
  have hrest : s = false → rest = 0 := by
    rintro rfl
    exact le_antisymm (not_lt.mp fun hpos => Bool.false_ne_true (hsticky.mpr hpos)) hle
  have hpos : s = true → 0 < rest := fun hs => hsticky.mp hs
  cases r with
  | false =>
    have hrounded : (⟨m, false, s⟩ : ExtendedMantissa).roundedMantissa = m := by cases s <;> rfl
    have hdiff : (m : ℚ) - (m + (false.toNat : ℚ) / 2 + rest) = -rest := by simp
    rw [hrounded, hdiff, abs_neg, abs_of_nonneg hle]
    exact ⟨hlt.le, fun heq => absurd heq hlt.ne⟩
  | true =>
    cases s with
    | false =>
      obtain rfl := hrest rfl
      have hrounded : (⟨m, true, false⟩ : ExtendedMantissa).roundedMantissa = m + m % 2 := rfl
      rw [hrounded]
      refine ⟨?_, fun _ => by omega⟩
      have hmod : ((m % 2 : ℕ) : ℚ) = 0 ∨ ((m % 2 : ℕ) : ℚ) = 1 := by
        exact_mod_cast Nat.mod_two_eq_zero_or_one m
      have hdiff : ((m + m % 2 : ℕ) : ℚ) - (m + (true.toNat : ℚ) / 2 + 0) =
          ((m % 2 : ℕ) : ℚ) - 1 / 2 := by
        push_cast
        simp
      rw [hdiff, abs_le]
      rcases hmod with hmod | hmod <;> rw [hmod] <;> norm_num
    | true =>
      have hrounded : (⟨m, true, true⟩ : ExtendedMantissa).roundedMantissa = m + 1 := rfl
      have hdiff : ((m + 1 : ℕ) : ℚ) - (m + (true.toNat : ℚ) / 2 + rest) = 1 / 2 - rest := by
        push_cast
        simp
        ring
      have hpos := hpos rfl
      rw [hrounded, hdiff, abs_of_nonneg (by linarith)]
      exact ⟨by linarith, fun heq => absurd heq (by linarith)⟩

theorem Represents.roundedMantissa_mono (h : Represents em x) (h' : Represents em' x')
    (hle : x ≤ x') : em.roundedMantissa ≤ em'.roundedMantissa := by
  obtain ⟨hnear, heven⟩ := h.near
  obtain ⟨hnear', heven'⟩ := h'.near
  by_contra hlt
  have hstep : (em'.roundedMantissa : ℚ) + 1 ≤ em.roundedMantissa := by
    exact_mod_cast Nat.lt_of_not_le hlt
  rw [abs_le] at hnear hnear'
  -- both numbers lie half way between two neighbours, which are both even
  have hhalf : (em.roundedMantissa : ℚ) - x = 1 / 2 := by linarith
  have hhalf' : (em'.roundedMantissa : ℚ) - x' = -(1 / 2) := by linarith
  have hnext : em.roundedMantissa = em'.roundedMantissa + 1 := by
    have : (em.roundedMantissa : ℚ) = em'.roundedMantissa + 1 := by linarith
    exact_mod_cast this
  have h₁ := heven (by rw [hhalf]; norm_num)
  have h₂ := heven' (by rw [hhalf', abs_neg]; norm_num)
  omega

/-! ## Rounding to a double -/

/-- The number as a whole multiple of its place, of two that are equally near the even one. -/
def units (v : ℚ) : ℕ :=
  (ExtendedMantissa.ofMantissaAndAccuracy ⌊v / 2 ^ place v⌋.toNat
    (accuracy (Int.fract (v / 2 ^ place v)))).roundedMantissa

/-- The number rounded to 53 bits, or to the least place. -/
def rounded (v : ℚ) : ℚ :=
  units v * 2 ^ place v

theorem units_le (hv : 0 < v) : units v ≤ 2 ^ 53 := by
  have hlt := mantissa_lt hv (represents_place hv)
  have hle := (roundedMantissa_le (ExtendedMantissa.ofMantissaAndAccuracy
    ⌊v / 2 ^ place v⌋.toNat (accuracy (Int.fract (v / 2 ^ place v))))).2
  exact Nat.le_trans hle hlt

theorem le_units (hv : 0 < v) : 2 ^ 52 ≤ units v ∨ place v = -1074 := by
  refine or_iff_not_imp_right.mpr fun hplace => ?_
  have hlog : place v = Int.log 2 v - 52 := by
    rw [place] at hplace ⊢
    omega
  have hpow : (2 : ℚ) ^ (52 : ℕ) ≤ v / 2 ^ place v := by
    rw [le_div_iff₀ (zpow_pos two_pos _), hlog, ← zpow_natCast, ← zpow_add₀ two_ne_zero]
    have hself := Int.zpow_log_le_self (b := 2) (by decide) hv
    rw [Nat.cast_ofNat] at hself
    refine le_trans (le_of_eq ?_) hself
    congr 1
    push_cast
    ring
  have hexact := (represents_exact (2 ^ 52)).roundedMantissa_mono (represents_place hv)
    (by exact_mod_cast hpow)
  exact hexact

theorem abs_units_sub_le (hv : 0 < v) : |(units v : ℚ) - v / 2 ^ place v| ≤ 1 / 2 :=
  (represents_place hv).near.1

/-- Rounding moves a number by half of its place at most. -/
theorem abs_rounded_sub_le (hv : 0 < v) : |rounded v - v| ≤ 2 ^ place v / 2 := by
  have hpow : (0 : ℚ) < 2 ^ place v := zpow_pos two_pos _
  have hdiff : rounded v - v = ((units v : ℚ) - v / 2 ^ place v) * 2 ^ place v := by
    rw [rounded, sub_mul, div_mul_cancel₀ _ hpow.ne']
  rw [hdiff, abs_mul, abs_of_pos hpow, ← one_div_mul_eq_div 2]
  exact mul_le_mul_of_nonneg_right (abs_units_sub_le hv) hpow.le

theorem place_mono (hv : 0 < v) (h : v ≤ w) : place v ≤ place w :=
  max_le_max_right _ (Int.sub_le_sub_right (Int.log_mono_right hv h) _)

/-- Of two numbers the smaller one is not rounded to more. -/
theorem rounded_mono (hv : 0 < v) (h : v ≤ w) : rounded v ≤ rounded w := by
  have hw : 0 < w := lt_of_lt_of_le hv h
  rcases (place_mono hv h).eq_or_lt with heq | hlt
  · have hunits : units v ≤ units w := by
      refine (represents_place hv).roundedMantissa_mono (represents_place hw) ?_
      rw [heq]
      exact div_le_div_of_nonneg_right h (zpow_pos two_pos _).le
    rw [rounded, rounded, heq]
    exact mul_le_mul_of_nonneg_right (by exact_mod_cast hunits) (zpow_pos two_pos _).le
  · have hfull : 2 ^ 52 ≤ units w := (le_units hw).resolve_right fun hplace => by
      rw [place, place] at hlt
      rw [place] at hplace
      omega
    calc rounded v ≤ 2 ^ 53 * 2 ^ place v :=
          mul_le_mul_of_nonneg_right (by exact_mod_cast units_le hv) (zpow_pos two_pos _).le
      _ = 2 ^ 52 * 2 ^ (place v + 1) := by rw [zpow_add_one₀ two_ne_zero]; ring
      _ ≤ 2 ^ 52 * 2 ^ place w :=
          mul_le_mul_of_nonneg_left (zpow_le_zpow_right₀ one_le_two hlt) (by norm_num)
      _ ≤ rounded w :=
          mul_le_mul_of_nonneg_right (by exact_mod_cast hfull) (zpow_pos two_pos _).le

/-! ## The rank of a double -/

/-- The number with a sign. -/
def signed : Sign → ℚ → ℚ
  | .positive, q => q
  | .negative, q => -q

/-- No double of this size is finite. -/
@[irreducible]
def limit : ℚ :=
  2 ^ (1024 : ℤ)

theorem limit_pos : 0 < limit := by
  rw [limit]
  exact zpow_pos two_pos _

/-- The place among the numbers of what is no NaN. Infinity stands in front of all that is not
finite, and both zeros have one place. -/
def rankOf : UnpackedFloat → ℚ
  | .infinity s => signed s limit
  | .finite s m e _ => signed s (m * 2 ^ e)
  | .zero _ | .notANumber => 0

/-- The place of a double among the numbers. -/
def rank (x : Float) : ℚ :=
  rankOf x.toModel.unpack

theorem rank_infinity : rank (.ofModel (.pack (.infinity .positive))) = limit := by
  rfl

theorem rank_zero : rank (.ofModel (.pack (.zero .positive))) = 0 := by
  rfl

theorem rank_finite {m : ℕ} {e : ℤ} (h : Canonical m e) :
    rank (.ofModel (.pack (.finite .positive m e h.pos))) = m * 2 ^ e := by
  change rankOf (Float.Model.pack (.finite .positive m e h.pos)).unpack = _
  rw [unpack_pack .positive h]
  rfl

theorem Canonical.value_pos {m : ℕ} {e : ℤ} (h : Canonical m e) : (0 : ℚ) < m * 2 ^ e :=
  mul_pos (by exact_mod_cast h.pos) (zpow_pos two_pos _)

theorem Canonical.value_lt {m : ℕ} {e : ℤ} (h : Canonical m e) : (m * 2 ^ e : ℚ) < limit := by
  have hle := h.le
  rw [limit]
  calc (m * 2 ^ e : ℚ) < 2 ^ (53 : ℤ) * 2 ^ e :=
        mul_lt_mul_of_pos_right (by exact_mod_cast h.lt) (zpow_pos two_pos _)
    _ = 2 ^ (53 + e) := (zpow_add₀ two_ne_zero _ _).symm
    _ ≤ 2 ^ (1024 : ℤ) := zpow_le_zpow_right₀ one_le_two (by omega)

/-- A mantissa that fills its place is in range or stands for infinity. -/
theorem canonical_or_infinity {m : ℕ} {e : ℤ} (hm : 0 < m) (hlt : m < 2 ^ 53) (he : -1074 ≤ e)
    (hfull : 2 ^ 52 ≤ m ∨ e = -1074) : Canonical m e ∨ limit ≤ m * 2 ^ e ∧
      Float.Model.pack (.finite .positive m e hm) = Float.Model.pack (.infinity .positive) := by
  by_cases hle : e ≤ 971
  · exact .inl ⟨hm, hlt, he, hle, hfull⟩
  · have hge : 2 ^ 52 ≤ m := hfull.resolve_right (by omega)
    refine .inr ⟨?_, pack_eq_infinity hm (by omega)⟩
    rw [limit]
    calc (2 : ℚ) ^ (1024 : ℤ) ≤ 2 ^ (52 + e) := zpow_le_zpow_right₀ one_le_two (by omega)
      _ = 2 ^ (52 : ℤ) * 2 ^ e := zpow_add₀ two_ne_zero _ _
      _ ≤ m * 2 ^ e :=
        mul_le_mul_of_nonneg_right (by exact_mod_cast hge) (zpow_pos two_pos _).le

/-- What the double nearest to a number is: zero, finite or infinite. -/
inductive Nearest (v : ℚ) : Prop
  | zero (h : rounded v = 0) (hx : nearest v = .ofModel (.pack (.zero .positive)))
  | finite {m : ℕ} {e : ℤ} (hc : Canonical m e) (h : rounded v = m * 2 ^ e)
    (hx : nearest v = .ofModel (.pack (.finite .positive m e hc.pos)))
  | infinity (h : limit ≤ rounded v) (hx : nearest v = .ofModel (.pack (.infinity .positive)))

theorem nearest_of_pack {m : ℕ} {e : ℤ} (hm : 0 < m) (hlt : m < 2 ^ 53) (he : -1074 ≤ e)
    (hfull : 2 ^ 52 ≤ m ∨ e = -1074) (h : rounded v = m * 2 ^ e)
    (hx : nearest v = .ofModel (.pack (.finite .positive m e hm))) : Nearest v := by
  rcases canonical_or_infinity hm hlt he hfull with hc | ⟨hrange, hpack⟩
  · exact .finite hc h hx
  · exact .infinity (hrange.trans_eq h.symm) (by rw [hx, hpack])

/-- **The double nearest to a number is the rounded number**, if that is in range. -/
theorem nearest_cases (hv : 0 < v) : Nearest v := by
  obtain ⟨em, hrep, hnearest⟩ := nearest_place hv
  have hunits : em.roundedMantissa = units v := by
    rw [hrep.unique (represents_place hv), units]
  have hplace : -1074 ≤ place v := le_max_right _ _
  simp only [hunits] at hnearest
  split at hnearest
  · rename_i hz
    exact .zero (by rw [rounded, hz, Nat.cast_zero, zero_mul]) hnearest
  · split at hnearest
    · rename_i hlt
      exact nearest_of_pack _ hlt hplace (le_units hv) rfl hnearest
    · -- rounding up has carried into one more bit
      rename_i hge
      have hcarry : units v = 2 ^ 53 := le_antisymm (units_le hv) (not_lt.mp hge)
      have hvalue : rounded v = (2 ^ 52 : ℕ) * 2 ^ (place v + 1) := by
        rw [rounded, hcarry, zpow_add_one₀ two_ne_zero]
        push_cast
        ring
      exact nearest_of_pack _ (by decide) (by omega) (.inl le_rfl) hvalue hnearest

theorem rank_nearest (hv : 0 < v) : rank (nearest v) = min (rounded v) limit := by
  cases nearest_cases hv with
  | zero h hx => rw [hx, h, min_eq_left limit_pos.le, rank_zero]
  | finite hc h hx => rw [hx, h, min_eq_left hc.value_lt.le, rank_finite hc]
  | infinity h hx => rw [hx, min_eq_right h, rank_infinity]

theorem isNaN_nearest (hv : 0 < v) : (nearest v).isNaN = false := by
  cases nearest_cases hv with
  | zero h hx => rw [hx]; rfl
  | finite hc h hx =>
    rw [hx]
    change (Float.Model.pack (.finite .positive _ _ hc.pos)).unpack.isNaN = false
    rw [unpack_pack .positive hc]
    rfl
  | infinity h hx => rw [hx]; rfl

theorem rank_nearest_mono (hv : 0 < v) (h : v ≤ w) : rank (nearest v) ≤ rank (nearest w) := by
  rw [rank_nearest hv, rank_nearest (lt_of_lt_of_le hv h)]
  exact min_le_min_right _ (rounded_mono hv h)

/-! ## Comparison -/

theorem mul_two_zpow_lt {m₁ m₂ : ℕ} {e₁ e₂ : ℤ} (h₁ : Canonical m₁ e₁) (h₂ : Canonical m₂ e₂)
    (h : e₁ < e₂) : (m₁ * 2 ^ e₁ : ℚ) < m₂ * 2 ^ e₂ := by
  have hge : 2 ^ 52 ≤ m₂ := h₂.full.resolve_right (by have := h₁.ge; omega)
  calc (m₁ * 2 ^ e₁ : ℚ) < 2 ^ 53 * 2 ^ e₁ :=
        mul_lt_mul_of_pos_right (by exact_mod_cast h₁.lt) (zpow_pos two_pos _)
    _ = 2 ^ 52 * 2 ^ (e₁ + 1) := by rw [zpow_add_one₀ two_ne_zero]; ring
    _ ≤ 2 ^ 52 * 2 ^ e₂ :=
        mul_le_mul_of_nonneg_left (zpow_le_zpow_right₀ one_le_two h) (by norm_num)
    _ ≤ m₂ * 2 ^ e₂ :=
        mul_le_mul_of_nonneg_right (by exact_mod_cast hge) (zpow_pos two_pos _).le

/-- Of two doubles the one with the greater exponent is greater, and of two with the same exponent
the one with the greater mantissa. -/
theorem compare_magnitudes {m₁ m₂ : ℕ} {e₁ e₂ : ℤ} (h₁ : Canonical m₁ e₁)
    (h₂ : Canonical m₂ e₂) : (compare e₁ e₂).then (compare m₁ m₂) =
      compare (m₁ * 2 ^ e₁ : ℚ) (m₂ * 2 ^ e₂) := by
  rcases lt_trichotomy e₁ e₂ with hlt | rfl | hgt
  · rw [compare_lt_iff_lt.mpr hlt, compare_lt_iff_lt.mpr (mul_two_zpow_lt h₁ h₂ hlt)]
    rfl
  · have hpow : (0 : ℚ) < 2 ^ e₁ := zpow_pos two_pos _
    rw [compare_eq_iff_eq.mpr rfl]
    change compare m₁ m₂ = _
    rcases lt_trichotomy m₁ m₂ with hlt | rfl | hgt
    · rw [compare_lt_iff_lt.mpr hlt,
        compare_lt_iff_lt.mpr (mul_lt_mul_of_pos_right (by exact_mod_cast hlt) hpow)]
    · rw [compare_eq_iff_eq.mpr rfl, compare_eq_iff_eq.mpr rfl]
    · rw [compare_gt_iff_gt.mpr hgt,
        compare_gt_iff_gt.mpr (mul_lt_mul_of_pos_right (by exact_mod_cast hgt) hpow)]
  · rw [compare_gt_iff_gt.mpr hgt, compare_gt_iff_gt.mpr (mul_two_zpow_lt h₂ h₁ hgt)]
    rfl

theorem compare_neg (p q : ℚ) : compare (-p) (-q) = (compare p q).swap := by
  rcases lt_trichotomy p q with h | rfl | h
  · rw [compare_lt_iff_lt.mpr h, Ordering.swap, compare_gt_iff_gt]
    exact neg_lt_neg h
  · rw [compare_eq_iff_eq.mpr rfl, compare_eq_iff_eq.mpr rfl, Ordering.swap]
  · rw [compare_gt_iff_gt.mpr h, Ordering.swap, compare_lt_iff_lt]
    exact neg_lt_neg h

/-- **Doubles other than NaN compare as their ranks.** -/
theorem compare_unpack {f g : Float.Model} (hf : f.unpack ≠ .notANumber)
    (hg : g.unpack ≠ .notANumber) :
    f.unpack.compare g.unpack = some (compare (rankOf f.unpack) (rankOf g.unpack)) := by
  have hlimit := limit_pos
  have hlt {p q : ℚ} (h : p < q) : some Ordering.lt = some (compare p q) :=
    congrArg some (compare_lt_iff_lt.mpr h).symm
  have hgt {p q : ℚ} (h : q < p) : some Ordering.gt = some (compare p q) :=
    congrArg some (compare_gt_iff_gt.mpr h).symm
  have heq (q : ℚ) : some Ordering.eq = some (compare q q) :=
    congrArg some (compare_eq_iff_eq.mpr rfl).symm
  rcases hf' : f.unpack with (_ | _) | _ | s | ⟨_ | _, m, e, hm⟩
  case notANumber => exact absurd hf' hf
  case zero =>
    rcases hg' : g.unpack with (_ | _) | _ | t | ⟨_ | _, n, k, hn⟩
    case notANumber => exact absurd hg' hg
    case infinity.negative => exact hgt (neg_neg_of_pos hlimit)
    case infinity.positive => exact hlt hlimit
    case zero => exact heq 0
    case finite.negative => exact hgt (neg_neg_of_pos (canonical_of_unpack hg').value_pos)
    case finite.positive => exact hlt (canonical_of_unpack hg').value_pos
  case infinity.negative =>
    rcases hg' : g.unpack with (_ | _) | _ | t | ⟨_ | _, n, k, hn⟩
    case notANumber => exact absurd hg' hg
    case infinity.negative => exact heq (-limit)
    case infinity.positive => exact hlt (neg_lt_self hlimit)
    case zero => exact hlt (neg_neg_of_pos hlimit)
    case finite.negative => exact hlt (neg_lt_neg (canonical_of_unpack hg').value_lt)
    case finite.positive =>
      exact hlt ((neg_neg_of_pos hlimit).trans (canonical_of_unpack hg').value_pos)
  case infinity.positive =>
    rcases hg' : g.unpack with (_ | _) | _ | t | ⟨_ | _, n, k, hn⟩
    case notANumber => exact absurd hg' hg
    case infinity.negative => exact hgt (neg_lt_self hlimit)
    case infinity.positive => exact heq limit
    case zero => exact hgt hlimit
    case finite.negative =>
      exact hgt ((neg_neg_of_pos (canonical_of_unpack hg').value_pos).trans hlimit)
    case finite.positive => exact hgt (canonical_of_unpack hg').value_lt
  case finite.negative =>
    have hc := canonical_of_unpack hf'
    rcases hg' : g.unpack with (_ | _) | _ | t | ⟨_ | _, n, k, hn⟩
    case notANumber => exact absurd hg' hg
    case infinity.negative => exact hgt (neg_lt_neg hc.value_lt)
    case infinity.positive => exact hlt ((neg_neg_of_pos hc.value_pos).trans hlimit)
    case zero => exact hlt (neg_neg_of_pos hc.value_pos)
    case finite.negative =>
      have hmagnitudes := compare_magnitudes hc (canonical_of_unpack hg')
      exact congrArg some ((congrArg Ordering.swap hmagnitudes).trans (compare_neg _ _).symm)
    case finite.positive =>
      exact hlt ((neg_neg_of_pos hc.value_pos).trans (canonical_of_unpack hg').value_pos)
  case finite.positive =>
    have hc := canonical_of_unpack hf'
    rcases hg' : g.unpack with (_ | _) | _ | t | ⟨_ | _, n, k, hn⟩
    case notANumber => exact absurd hg' hg
    case infinity.negative => exact hgt ((neg_neg_of_pos hlimit).trans hc.value_pos)
    case infinity.positive => exact hlt hc.value_lt
    case zero => exact hgt hc.value_pos
    case finite.negative =>
      exact hgt ((neg_neg_of_pos (canonical_of_unpack hg').value_pos).trans hc.value_pos)
    case finite.positive =>
      exact congrArg some (compare_magnitudes hc (canonical_of_unpack hg'))

section Floats

variable {x y : Float}

theorem unpack_ne_of_isNaN (h : x.isNaN = false) : x.toModel.unpack ≠ .notANumber := by
  intro hnan
  have hfalse : x.toModel.unpack.isNaN = false := h
  rw [hnan] at hfalse
  cases hfalse

theorem unpack_of_isNaN (h : x.isNaN = true) : x.toModel.unpack = .notANumber := by
  have htrue : x.toModel.unpack.isNaN = true := h
  cases hx : x.toModel.unpack with
  | notANumber => rfl
  | _ =>
    rw [hx] at htrue
    cases htrue

/-- The order of doubles is found out by one comparison. -/
theorem lt_iff_compare (x y : Float) :
    x < y ↔ x.toModel.unpack.compare y.toModel.unpack = some .lt := by
  have hlt : x < y ↔ decide (x.toModel < y.toModel) = true := Iff.rfl
  rw [hlt, decide_eq_true_iff]
  exact beq_iff_eq

theorem beq_iff_compare (x y : Float) :
    (x == y) = true ↔ x.toModel.unpack.compare y.toModel.unpack = some .eq := by
  have hbeq : (x == y) = (x.toModel.unpack.compare y.toModel.unpack == some .eq) := rfl
  rw [hbeq, beq_iff_eq]

theorem lt_iff_rank (hx : x.isNaN = false) (hy : y.isNaN = false) : x < y ↔ rank x < rank y := by
  rw [lt_iff_compare, compare_unpack (unpack_ne_of_isNaN hx) (unpack_ne_of_isNaN hy),
    Option.some_inj, compare_lt_iff_lt]
  rfl

theorem beq_iff_rank (hx : x.isNaN = false) (hy : y.isNaN = false) :
    (x == y) = true ↔ rank x = rank y := by
  rw [beq_iff_compare, compare_unpack (unpack_ne_of_isNaN hx) (unpack_ne_of_isNaN hy),
    Option.some_inj, compare_eq_iff_eq]
  rfl

/-- NaN has no place in the order. -/
theorem compare_of_isNaN (h : x.isNaN = true ∨ y.isNaN = true) :
    x.toModel.unpack.compare y.toModel.unpack = none := by
  rcases h with h | h
  · rw [unpack_of_isNaN h, UnpackedFloat.compare]
  · rw [unpack_of_isNaN h]
    cases x.toModel.unpack <;> rfl

end Floats

/-! ## Integers as doubles -/

theorem ofNat_eq_nearest (n : ℕ) : Float.ofNat n = nearest n := by
  have hvalue : (⟨n, 0⟩ : Decimal).value = n := by
    rw [Decimal.value, zpow_zero, mul_one]
  rw [← hvalue, ← Decimal.toFloat_eq]
  rfl

theorem unpack_neg (x : Float) : (-x).toModel.unpack = x.toModel.unpack.neg := by
  change (Float.Model.pack x.toModel.unpack.neg).unpack = x.toModel.unpack.neg
  rcases hx : x.toModel.unpack with (_ | _) | _ | (_ | _) | ⟨s, m, e, hm⟩
  case finite => exact unpack_pack (-s) (canonical_of_unpack hx)
  all_goals rfl

theorem rank_neg (x : Float) : rank (-x) = -rank x := by
  rw [rank, unpack_neg, rank]
  rcases x.toModel.unpack with (_ | _) | _ | (_ | _) | ⟨_ | _, m, e, hm⟩
  case infinity.negative | finite.negative => exact (neg_neg _).symm
  case infinity.positive | finite.positive => rfl
  case notANumber | zero.negative | zero.positive => exact neg_zero.symm

theorem rank_nearest_nonneg (hv : 0 < v) : 0 ≤ rank (nearest v) := by
  rw [rank_nearest hv]
  exact le_min (mul_nonneg (Nat.cast_nonneg _) (zpow_pos two_pos _).le) limit_pos.le

theorem rank_ofNat_mono {m n : ℕ} (h : m ≤ n) : rank (Float.ofNat m) ≤ rank (Float.ofNat n) := by
  rw [ofNat_eq_nearest, ofNat_eq_nearest]
  rcases Nat.eq_zero_or_pos m with rfl | hm
  · have hzero : rank (nearest 0) = 0 := by rw [nearest_zero, rank_zero]
    rw [Nat.cast_zero, hzero]
    rcases Nat.eq_zero_or_pos n with rfl | hn
    · exact hzero.ge
    · exact rank_nearest_nonneg (by exact_mod_cast hn)
  · exact rank_nearest_mono (by exact_mod_cast hm) (by exact_mod_cast h)

theorem rank_ofNat_nonneg (n : ℕ) : 0 ≤ rank (Float.ofNat n) := by
  have hzero : rank (Float.ofNat 0) = 0 := by
    rw [ofNat_eq_nearest, Nat.cast_zero, nearest_zero, rank_zero]
  exact hzero.ge.trans (rank_ofNat_mono (Nat.zero_le n))

theorem isNaN_neg (x : Float) : (-x).isNaN = x.isNaN := by
  change (-x).toModel.unpack.isNaN = x.toModel.unpack.isNaN
  rw [unpack_neg]
  cases x.toModel.unpack <;> rfl

theorem isNaN_ofNat (n : ℕ) : (Float.ofNat n).isNaN = false := by
  rw [ofNat_eq_nearest]
  rcases Nat.eq_zero_or_pos n with rfl | hn
  · rw [Nat.cast_zero, nearest_zero]
    rfl
  · exact isNaN_nearest (by exact_mod_cast hn)

theorem isNaN_ofInt (n : ℤ) : (Float.ofInt n).isNaN = false := by
  cases n with
  | ofNat n => exact isNaN_ofNat n
  | negSucc n => exact (isNaN_neg _).trans (isNaN_ofNat _)

/-- **Of two integers the smaller one is not the greater double.** -/
theorem rank_ofInt_mono {m n : ℤ} (h : m ≤ n) : rank (Float.ofInt m) ≤ rank (Float.ofInt n) := by
  cases m with
  | ofNat m =>
    cases n with
    | ofNat n => exact rank_ofNat_mono (Int.ofNat_le.mp h)
    | negSucc n => exact absurd (h.trans_lt (Int.negSucc_lt_zero n)) (Int.natCast_nonneg m).not_gt
  | negSucc m =>
    cases n with
    | ofNat n =>
      refine le_trans ?_ (rank_ofNat_nonneg n)
      exact (rank_neg _).trans_le (neg_nonpos.mpr (rank_ofNat_nonneg _))
    | negSucc n =>
      refine (rank_neg _).trans_le (le_trans ?_ (rank_neg _).ge)
      exact neg_le_neg (rank_ofNat_mono (by omega))

end DataBinding.Double
