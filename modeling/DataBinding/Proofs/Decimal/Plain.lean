import DataBinding.Decimal.Printer
import DataBinding.Decimal.Reader
import DataBinding.Proofs.Decimal.ReadBack
import DataBinding.Proofs.Path.Printed

/-!
# Doubles read back from their text

* `Decimal.exists_isPlain`: plain notation is digits with a point, and has the decimal's value.
* `plainText_eq`: the text of a finite double is a sign and plain notation, with no exponent.
* `readFloat?_plainText`: it reads back as the double.
-/

namespace DataBinding

/-! ## Digits and signs -/

theorem isDigit_of_mem_toDigits {n : Nat} {c : Char} (h : c ∈ Nat.toDigits 10 n) :
    c.isDigit = true :=
  Nat.isDigit_of_mem_toDigits (by decide) (by decide) h

theorem head?_toDigits (n : Nat) : ∃ c, (Nat.toDigits 10 n).head? = some c ∧ c.isDigit = true := by
  obtain ⟨c, cs, hcs⟩ := List.exists_cons_of_ne_nil (Nat.toDigits_ne_nil (b := 10) (n := n))
  exact ⟨c, by rw [hcs]; rfl, isDigit_of_mem_toDigits (hcs ▸ List.mem_cons_self)⟩

/-- The sign in front of a number. -/
def signPrefix (negative : Bool) : List Char :=
  if negative then ['-'] else []

/-- A sign is told from the digit behind it. -/
theorem splitSign_signPrefix (negative : Bool) {cs : List Char}
    (h : ∃ c, cs.head? = some c ∧ c.isDigit = true) :
    splitSign (signPrefix negative ++ cs) = (negative, cs) := by
  obtain ⟨c, hc, hdigit⟩ := h
  cases negative with
  | true => rfl
  | false =>
    change splitSign cs = _
    unfold splitSign
    split
    · obtain rfl := Option.some.inj hc
      cases hdigit
    · obtain rfl := Option.some.inj hc
      cases hdigit
    · rfl

/-! ## Plain notation -/

/-- The text is digits, a point and digits, and spells the number. -/
structure IsPlain (cs whole fraction : List Char) (v : ℚ) : Prop where
  eq : cs = whole ++ '.' :: fraction
  whole_ne : whole ≠ []
  fraction_ne : fraction ≠ []
  isDigit : ∀ c ∈ whole ++ fraction, c.isDigit = true
  value : Nat.ofDigitChars 10 (whole ++ fraction) 0 * (10 : ℚ) ^ (-fraction.length : ℤ) = v

namespace IsPlain

variable {cs whole fraction : List Char} {v : ℚ}

theorem isDigit_whole (h : IsPlain cs whole fraction v) : ∀ c ∈ whole, c.isDigit = true :=
  fun c hc => h.isDigit c (List.mem_append_left _ hc)

theorem isDigit_fraction (h : IsPlain cs whole fraction v) : ∀ c ∈ fraction, c.isDigit = true :=
  fun c hc => h.isDigit c (List.mem_append_right _ hc)

theorem head? (h : IsPlain cs whole fraction v) : ∃ c, cs.head? = some c ∧ c.isDigit = true := by
  obtain ⟨c, ds, hwhole⟩ := List.exists_cons_of_ne_nil h.whole_ne
  refine ⟨c, ?_, h.isDigit_whole c (hwhole ▸ List.mem_cons_self)⟩
  rw [h.eq, hwhole]
  rfl

/-- **Plain notation reads back** as a decimal of the same value. -/
theorem read? (h : IsPlain cs whole fraction v) : ∃ d, Decimal.read? cs = some d ∧ d.value = v := by
  have hpoint : Stops Char.isDigit ('.' :: fraction) := stops_cons (by decide) _
  have htake := takeWhile_run h.isDigit_whole hpoint
  have hdrop := dropWhile_run h.isDigit_whole hpoint
  have hfraction : splitFraction ('.' :: fraction) = (fraction, []) := by
    have htake := takeWhile_run h.isDigit_fraction (stops_nil _)
    have hdrop := dropWhile_run h.isDigit_fraction (stops_nil _)
    rw [List.append_nil] at htake hdrop
    rw [splitFraction, htake, hdrop]
  refine ⟨⟨Nat.ofDigitChars 10 (whole ++ fraction) 0, 0 - fraction.length⟩, ?_, ?_⟩
  · rw [h.eq, Decimal.read?, htake, hdrop, hfraction]
    simp only
    rw [if_neg fun hnil => h.whole_ne hnil.1]
    rfl
  · rw [Decimal.value, zero_sub]
    exact h.value

end IsPlain

namespace Decimal

theorem isDigit_zeros {n : Nat} {c : Char} (h : c ∈ List.replicate n '0') : c.isDigit = true := by
  rw [(List.mem_replicate.mp h).2]
  decide

/-- A whole number ends in zeros, and has one more behind the point. -/
theorem isPlain_whole (n k : Nat) :
    IsPlain (Nat.toDigits 10 n ++ List.replicate k '0' ++ ['.', '0'])
      (Nat.toDigits 10 n ++ List.replicate k '0') ['0'] (n * 10 ^ (k : ℤ)) where
  eq := rfl
  whole_ne := List.append_ne_nil_of_left_ne_nil Nat.toDigits_ne_nil _
  fraction_ne := List.cons_ne_nil _ _
  isDigit c hc := by
    rcases List.mem_append.mp hc with hc | hc
    · rcases List.mem_append.mp hc with hc | hc
      · exact isDigit_of_mem_toDigits hc
      · exact isDigit_zeros hc
    · exact isDigit_zeros (n := 1) hc
  value := by
    rw [Nat.ofDigitChars_append, Nat.ofDigitChars_append, Nat.ofDigitChars_ten_toDigits,
      Nat.ofDigitChars_replicate_zero]
    change ((10 * (10 ^ k * n) + 0 : ℕ) : ℚ) * 10 ^ (-1 : ℤ) = n * 10 ^ (k : ℤ)
    push_cast
    rw [zpow_natCast]
    ring

/-- Any other number has its digits behind as many zeros as the point needs. -/
theorem isPlain_split (n : Nat) {k j : Nat} {digits : List Char} (hk : 0 < k)
    (hdigits : digits = List.replicate j '0' ++ Nat.toDigits 10 n) (hlength : k < digits.length) :
    IsPlain (digits.take (digits.length - k) ++ '.' :: digits.drop (digits.length - k))
      (digits.take (digits.length - k)) (digits.drop (digits.length - k))
      (n * 10 ^ (-k : ℤ)) where
  eq := rfl
  whole_ne := List.ne_nil_of_length_pos (by rw [List.length_take]; omega)
  fraction_ne := List.ne_nil_of_length_pos (by rw [List.length_drop]; omega)
  isDigit c hc := by
    rw [List.take_append_drop, hdigits] at hc
    rcases List.mem_append.mp hc with hc | hc
    · exact isDigit_zeros hc
    · exact isDigit_of_mem_toDigits hc
  value := by
    rw [List.take_append_drop, List.length_drop, Nat.sub_sub_self hlength.le, hdigits,
      Nat.ofDigitChars_append, Nat.ofDigitChars_replicate_zero, Nat.mul_zero,
      Nat.ofDigitChars_ten_toDigits]

/-- **Plain notation** is digits with a point, and has the decimal's value. -/
theorem exists_isPlain (d : Decimal) :
    ∃ whole fraction, IsPlain d.plain whole fraction d.value := by
  rw [plain, Decimal.value]
  split
  · rename_i hnonneg
    have hexp : d.exponent = (d.exponent.toNat : ℤ) := (Int.toNat_of_nonneg hnonneg).symm
    rw [hexp]
    exact ⟨_, _, isPlain_whole d.digits d.exponent.toNat⟩
  · rename_i hneg
    obtain ⟨k, hk⟩ : ∃ k, (-d.exponent).toNat = k := ⟨_, rfl⟩
    have hexp : d.exponent = (-k : ℤ) := by omega
    have hlength : k < (List.replicate (k + 1 - d.digitChars.length) '0' ++ d.digitChars).length := by
      rw [List.length_append, List.length_replicate]
      omega
    rw [hk, hexp]
    exact ⟨_, _, isPlain_split d.digits (by omega) rfl hlength⟩

end Decimal

/-! ## Doubles -/

/-- **The text of a finite double** is a sign and plain notation. -/
theorem plainText_eq {x : Float} (h : x.isFinite = true) :
    plainText x = signPrefix (decide (x.toBits >>> 63 = 1)) ++
      (Decimal.shortest .up x.abs).plain := by
  have hfinite : x.toModel.unpack.isFinite = true := h
  have hnan : x.isNaN = false := by
    change x.toModel.unpack.isNaN = false
    cases hx : x.toModel.unpack <;> rw [hx] at hfinite <;> first | rfl | cases hfinite
  have hinf : x.isInf = false := by
    change x.toModel.unpack.isInf = false
    cases hx : x.toModel.unpack <;> rw [hx] at hfinite <;> first | rfl | cases hfinite
  rw [plainText, hnan, hinf, signChars, signPrefix]
  simp only [Bool.false_eq_true, if_false, decide_eq_true_eq]

/-- **A finite double reads back from its text.** -/
theorem readFloat?_plainText {x : Float} (h : x.isFinite = true) :
    readFloat? (plainText x) = some x := by
  obtain ⟨whole, fraction, hplain⟩ := (Decimal.shortest .up x.abs).exists_isPlain
  obtain ⟨d, hd, hvalue⟩ := hplain.read?
  have habs := Decimal.shortest_abs .up h
  rw [plainText_eq h, readFloat?, splitSign_signPrefix _ hplain.head?, hd, Option.map_some,
    Decimal.toFloat_congr hvalue]
  simpa only [decide_eq_true_eq, Option.some.injEq] using habs

end DataBinding
