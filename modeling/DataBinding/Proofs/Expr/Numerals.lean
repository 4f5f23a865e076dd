import DataBinding.Proofs.Decimal.Nearest
import DataBinding.Proofs.Expr.Nested

/-!
# Numerals

A number among arguments is an optional minus, digits, an optional fraction and an optional
exponent. The reader takes any run of digits and points, and leaves it to the readers of integers
and doubles what they make of it; so digits may be missing in two places.

* `Numeral`: a numeral, by its parts. `Numeral.Regular`: digits stand wherever there may be some.
* `Numeral.Gapped`: digits are missing in front of the point, or between the point and an exponent.
* `Numeral.value?`: the integer or the double nearest to the number, if it fits.
* `numberValue?_eq_some_iff`: which texts spell which numbers.
* `Numeral.chars_injective`: a text is one numeral at most.
-/

namespace DataBinding

open Text

/-! ## Numerals -/

/-- An exponent: its mark, an optional sign, and digits. -/
@[ext]
structure Scale where
  mark : Char
  sign : Option Char
  digits : List Char
  isMark : mark = 'e' ∨ mark = 'E'
  isSign : ∀ c ∈ sign, c = '+' ∨ c = '-'
  digits_ne : digits ≠ []
  isDigit : ∀ c ∈ digits, c.isDigit = true

/-- A numeral: an optional minus, digits, an optional point with digits behind it, and an optional
exponent. In front of the point and behind it digits may be missing. -/
@[ext]
structure Numeral where
  negative : Bool
  whole : List Char
  fraction : Option (List Char)
  scale : Option Scale
  isDigit_whole : ∀ c ∈ whole, c.isDigit = true
  isDigit_fraction : ∀ ds ∈ fraction, ∀ c ∈ ds, c.isDigit = true

def Scale.chars (s : Scale) : List Char :=
  s.mark :: (s.sign.toList ++ s.digits)

/-- The power of ten. -/
def Scale.exponent (s : Scale) : ℤ :=
  if s.sign = some '-' then -(Nat.ofDigitChars 10 s.digits 0 : ℤ)
  else Nat.ofDigitChars 10 s.digits 0

namespace Numeral

def fractionChars (n : Numeral) : List Char :=
  n.fraction.elim [] ('.' :: ·)

def scaleChars (n : Numeral) : List Char :=
  n.scale.elim [] Scale.chars

/-- What stands behind the sign. -/
def unsigned (n : Numeral) : List Char :=
  n.whole ++ (n.fractionChars ++ n.scaleChars)

def chars (n : Numeral) : List Char :=
  signPrefix n.negative ++ n.unsigned

/-- Digits stand in front of the point, and behind it if there is one. -/
def Regular (n : Numeral) : Prop :=
  n.whole ≠ [] ∧ n.fraction ≠ some []

/-- Digits are missing in front of the point, or between the point and an exponent. -/
def Gapped (n : Numeral) : Prop :=
  (n.whole = [] ∧ ∃ d ds, n.fraction = some (d :: ds)) ∨
    (n.whole ≠ [] ∧ n.fraction = some [] ∧ n.scale ≠ none)

/-- The power of ten that the number is multiplied with. -/
def exponent (n : Numeral) : ℤ :=
  n.scale.elim 0 Scale.exponent

/-- The number without its sign. -/
def magnitude (n : Numeral) : ℚ :=
  (Nat.ofDigitChars 10 n.whole 0 +
      Nat.ofDigitChars 10 (n.fraction.getD []) 0 / 10 ^ (n.fraction.getD []).length) *
    10 ^ n.exponent

/-- The number, if it has neither a fraction nor an exponent. -/
def toInt (n : Numeral) : ℤ :=
  if n.negative then -(Nat.ofDigitChars 10 n.whole 0 : ℤ) else Nat.ofDigitChars 10 n.whole 0

/-- The double nearest to the number. -/
def toFloat (n : Numeral) : Float :=
  if n.negative then -Double.nearest n.magnitude else Double.nearest n.magnitude

/-- The value of the numeral, if it fits: 64 bits hold an integer, and any other number is a finite
double. -/
def value? (n : Numeral) : Option Value :=
  if n.fraction.isNone && n.scale.isNone then (toInt64? n.toInt).map .int
  else if n.toFloat.isFinite then some (.double n.toFloat) else none

end Numeral

/-! ## Signs -/

def isSign (c : Char) : Bool :=
  c == '+' || c == '-'

theorem exists_sign (cs : List Char) : ∃ sign : Option Char, (∀ c ∈ sign, c = '+' ∨ c = '-') ∧
    sign.toList ++ (splitSign cs).2 = cs ∧ ((splitSign cs).1 = true ↔ sign = some '-') := by
  unfold splitSign
  split
  · exact ⟨some '-', by simp, rfl, by simp⟩
  · exact ⟨some '+', by simp, rfl, by simp⟩
  · exact ⟨none, by simp, rfl, by simp⟩

theorem splitSign_of_stops {cs : List Char} (h : Stops isSign cs) : splitSign cs = (false, cs) := by
  unfold splitSign
  split
  · exact absurd rfl (h '-' rfl)
  · exact absurd rfl (h '+' rfl)
  · rfl

/-- A sign is taken off a text that does not begin with another one. -/
theorem splitSign_sign {sign : Option Char} {cs : List Char}
    (hsign : ∀ c ∈ sign, c = '+' ∨ c = '-') (h : Stops isSign cs) :
    splitSign (sign.toList ++ cs) = (decide (sign = some '-'), cs) := by
  cases sign with
  | none => exact splitSign_of_stops h
  | some c => rcases hsign c rfl with rfl | rfl <;> rfl

theorem not_isSign_of_isDigit {c : Char} (h : c.isDigit = true) : ¬ isSign c = true := by
  rw [isSign, Bool.or_eq_true, beq_iff_eq, beq_iff_eq]
  rintro (rfl | rfl) <;> cases h

theorem stops_isSign_of_isDigit {cs : List Char} (h : ∀ c ∈ cs, c.isDigit = true) :
    Stops isSign cs :=
  fun c hc => not_isSign_of_isDigit (h c (List.mem_of_mem_head? hc))

/-- **Integers are read** from an optional sign and digits. -/
theorem readInt?_eq_some_iff {cs : List Char} {i : ℤ} :
    readInt? cs = some i ↔ ∃ (sign : Option Char) (ds : List Char),
      (∀ c ∈ sign, c = '+' ∨ c = '-') ∧ (ds ≠ [] ∧ ∀ c ∈ ds, c.isDigit = true) ∧
      sign.toList ++ ds = cs ∧ (if sign = some '-' then -(Nat.ofDigitChars 10 ds 0 : ℤ)
        else Nat.ofDigitChars 10 ds 0) = i := by
  have hmap : readInt? cs = (readNat? (splitSign cs).2).map
      fun n : ℕ => if (splitSign cs).1 then -(n : ℤ) else n := by
    rw [readInt?]
    cases readNat? (splitSign cs).2 <;> rfl
  have hnat (ds : List Char) (n : ℕ) : readNat? ds = some n ↔
      (ds ≠ [] ∧ ∀ c ∈ ds, c.isDigit = true) ∧ Nat.ofDigitChars 10 ds 0 = n := by
    rw [readNat?, Option.ite_none_right_eq_some, List.all_eq_true, Option.some.injEq]
  rw [hmap, Option.map_eq_some_iff]
  simp only [hnat]
  constructor
  · rintro ⟨_, ⟨hdigits, rfl⟩, rfl⟩
    obtain ⟨sign, hsign, happend, hminus⟩ := exists_sign cs
    exact ⟨sign, _, hsign, hdigits, happend, by simp only [hminus]⟩
  · rintro ⟨sign, ds, hsign, hdigits, rfl, rfl⟩
    rw [splitSign_sign hsign (stops_isSign_of_isDigit hdigits.2)]
    exact ⟨_, ⟨hdigits, rfl⟩, by simp only [decide_eq_true_eq]⟩

/-! ## Exponents and decimals -/

namespace Numeral

theorem readExponent?_scaleChars (n : Numeral) : readExponent? n.scaleChars = some n.exponent := by
  rw [scaleChars, exponent]
  cases n.scale with
  | none => rfl
  | some s =>
    change readExponent? (s.mark :: (s.sign.toList ++ s.digits)) = some s.exponent
    rw [readExponent?, if_pos s.isMark, readInt?_eq_some_iff]
    exact ⟨s.sign, s.digits, s.isSign, ⟨s.digits_ne, s.isDigit⟩, rfl, rfl⟩

theorem exists_scale {cs : List Char} {e : ℤ} (h : readExponent? cs = some e) :
    ∃ scale : Option Scale, scale.elim [] Scale.chars = cs ∧ scale.elim 0 Scale.exponent = e := by
  unfold readExponent? at h
  split at h
  · exact ⟨none, rfl, Option.some.inj h⟩
  · rename_i c cs
    obtain ⟨hmark, hint⟩ := Option.ite_none_right_eq_some.mp h
    obtain ⟨sign, ds, hsign, ⟨hne, hdigit⟩, rfl, rfl⟩ := readInt?_eq_some_iff.mp hint
    exact ⟨some ⟨c, sign, ds, hmark, hsign, hne, hdigit⟩, rfl, rfl⟩

theorem stops_scaleChars {p : Char → Bool} (he : ¬ p 'e' = true) (hE : ¬ p 'E' = true)
    (n : Numeral) : Stops p n.scaleChars := by
  rw [scaleChars]
  cases n.scale with
  | none => exact stops_nil p
  | some s => rcases s.isMark with h | h <;> exact stops_cons (h ▸ by assumption) _

/-- What stands behind the digits is read as the fraction and the exponent. -/
theorem splitFraction_chars (n : Numeral) :
    splitFraction (n.fractionChars ++ n.scaleChars) = (n.fraction.getD [], n.scaleChars) := by
  have hstop := n.stops_scaleChars (p := Char.isDigit) (by decide) (by decide)
  have hdigit := n.isDigit_fraction
  rw [fractionChars]
  cases hfraction : n.fraction with
  | none =>
    have hpoint := n.stops_scaleChars (p := (· == '.')) (by decide) (by decide)
    change splitFraction n.scaleChars = ([], n.scaleChars)
    unfold splitFraction
    split
    · rename_i cs hcs
      exact absurd rfl (hpoint '.' (by rw [hcs]; rfl))
    · rfl
  | some ds =>
    rw [hfraction] at hdigit
    change splitFraction ('.' :: (ds ++ n.scaleChars)) = (ds, n.scaleChars)
    rw [splitFraction, takeWhile_run (hdigit ds rfl) hstop, dropWhile_run (hdigit ds rfl) hstop]

theorem stops_behind (n : Numeral) : Stops Char.isDigit (n.fractionChars ++ n.scaleChars) := by
  rw [fractionChars]
  cases n.fraction with
  | none => exact n.stops_scaleChars (by decide) (by decide)
  | some ds => exact stops_cons (by decide) _

/-- The decimal that is read has the magnitude of the numeral. -/
theorem value_decimal (n : Numeral) :
    Decimal.value ⟨Nat.ofDigitChars 10 (n.whole ++ n.fraction.getD []) 0,
      n.exponent - (n.fraction.getD []).length⟩ = n.magnitude := by
  have hten : (10 : ℚ) ≠ 0 := by norm_num
  rw [Decimal.value, magnitude, Nat.ofDigitChars_append, Nat.ofDigitChars_eq_ofDigitChars_zero]
  push_cast
  rw [zpow_sub₀ hten, zpow_natCast]
  field_simp

/-- **An unsigned numeral is read** as a decimal, unless it has no digits at all. -/
theorem read?_unsigned (n : Numeral) (h : n.whole ≠ [] ∨ n.fraction.getD [] ≠ []) :
    ∃ d, Decimal.read? n.unsigned = some d ∧ d.value = n.magnitude := by
  refine ⟨_, ?_, n.value_decimal⟩
  rw [Decimal.read?, unsigned, takeWhile_run n.isDigit_whole n.stops_behind,
    dropWhile_run n.isDigit_whole n.stops_behind, splitFraction_chars]
  simp only
  rw [if_neg (by tauto), readExponent?_scaleChars]
  rfl

theorem exists_fraction (cs : List Char) : ∃ fraction : Option (List Char),
    fraction.elim [] ('.' :: ·) ++ (splitFraction cs).2 = cs ∧
    fraction.getD [] = (splitFraction cs).1 ∧ ∀ ds ∈ fraction, ∀ c ∈ ds, c.isDigit = true := by
  unfold splitFraction
  split
  · rename_i cs
    refine ⟨some (cs.takeWhile Char.isDigit), ?_, rfl, ?_⟩
    · exact congrArg ('.' :: ·) List.takeWhile_append_dropWhile
    · intro ds hds
      obtain rfl := Option.some.inj hds
      exact mem_takeWhile
  · exact ⟨none, rfl, rfl, nofun⟩

/-- A decimal is read from an unsigned numeral only. -/
theorem exists_of_read? {cs : List Char} {d : Decimal} (h : Decimal.read? cs = some d)
    (negative : Bool) : ∃ n : Numeral, n.negative = negative ∧ n.unsigned = cs ∧
      (n.whole ≠ [] ∨ n.fraction.getD [] ≠ []) ∧ n.magnitude = d.value := by
  unfold Decimal.read? at h
  simp only at h
  obtain ⟨hne, h⟩ := Option.ite_none_left_eq_some.mp h
  obtain ⟨e, he, rfl⟩ := Option.map_eq_some_iff.mp h
  obtain ⟨fraction, happend, hfraction, hdigit⟩ := exists_fraction (cs.dropWhile Char.isDigit)
  obtain ⟨scale, hscale, rfl⟩ := exists_scale he
  refine ⟨⟨negative, cs.takeWhile Char.isDigit, fraction, scale, mem_takeWhile, hdigit⟩, rfl, ?_,
    ?_, ?_⟩
  · rw [unsigned, fractionChars, scaleChars]
    simp only
    rw [hscale, happend, List.takeWhile_append_dropWhile]
  · rw [hfraction]
    tauto
  · rw [← value_decimal, hfraction]
    rfl

/-! ## Values -/

theorem stops_isSign_unsigned (n : Numeral) : Stops isSign n.unsigned := by
  refine (stops_isSign_of_isDigit n.isDigit_whole).append ?_
  rw [fractionChars]
  cases n.fraction with
  | none => exact n.stops_scaleChars (by decide) (by decide)
  | some ds => exact stops_cons (by decide) _

theorem splitSign_chars (n : Numeral) : splitSign n.chars = (n.negative, n.unsigned) := by
  rw [chars]
  cases n.negative with
  | true => rfl
  | false => exact splitSign_of_stops n.stops_isSign_unsigned

theorem readFloat?_chars (n : Numeral) (h : n.whole ≠ [] ∨ n.fraction.getD [] ≠ []) :
    readFloat? n.chars = some n.toFloat := by
  obtain ⟨d, hd, hvalue⟩ := n.read?_unsigned h
  rw [readFloat?, splitSign_chars, hd, Option.map_some, d.toFloat_eq, hvalue]
  rfl

theorem chars_of_none (n : Numeral) (hfraction : n.fraction = none) (hscale : n.scale = none) :
    n.chars = signPrefix n.negative ++ n.whole := by
  rw [chars, unsigned, fractionChars, scaleChars, hfraction, hscale]
  simp

theorem readInt?_chars (n : Numeral) (hfraction : n.fraction = none) (hscale : n.scale = none)
    (h : n.whole ≠ []) : readInt? n.chars = some n.toInt := by
  rw [readInt?_eq_some_iff, chars_of_none n hfraction hscale, toInt]
  cases n.negative with
  | true => exact ⟨some '-', n.whole, by simp, ⟨h, n.isDigit_whole⟩, rfl, rfl⟩
  | false => exact ⟨none, n.whole, by simp, ⟨h, n.isDigit_whole⟩, rfl, rfl⟩

/-- A point or the mark of an exponent makes a numeral a double. -/
theorem any_isDoubleMark_chars (n : Numeral) :
    n.chars.any isDoubleMark = !(n.fraction.isNone && n.scale.isNone) := by
  have hwhole : n.whole.any isDoubleMark = false :=
    List.any_eq_false.mpr fun c hc => not_isDoubleMark_of_isDigit (n.isDigit_whole c hc)
  rw [chars, unsigned, List.any_append, List.any_append, List.any_append,
    signPrefix_any_isDoubleMark, hwhole, fractionChars, scaleChars]
  cases n.fraction with
  | some ds => simp [isDoubleMark]
  | none =>
    cases n.scale with
    | none => rfl
    | some s => rcases s.isMark with h | h <;> simp [Scale.chars, h, isDoubleMark]

theorem not_isOpenEnd_of_digits {text ds : List Char} (cs : List Char) (htext : text = cs ++ ds)
    (hne : ds ≠ []) (hdigit : ∀ c ∈ ds, c.isDigit = true) :
    ¬ text.getLast?.any isOpenEnd = true := by
  rw [htext, List.getLast?_append_of_ne_nil _ hne, List.getLast?_eq_some_getLast hne,
    Option.any_some, not_isOpenEnd_of_isDigit (hdigit _ (List.getLast_mem hne))]
  decide

/-- A numeral with a point or an exponent ends in a digit, unless it ends in the point. -/
theorem isOpenEnd_chars_iff (n : Numeral) (h : (n.fraction.isNone && n.scale.isNone) = false) :
    n.chars.getLast?.any isOpenEnd = true ↔ n.fraction = some [] ∧ n.scale = none := by
  have hdigit := n.isDigit_fraction
  rw [chars, unsigned, fractionChars, scaleChars]
  cases hscale : n.scale with
  | some s =>
    refine iff_of_false (not_isOpenEnd_of_digits (signPrefix n.negative ++ n.whole ++
      n.fraction.elim [] ('.' :: ·) ++ s.mark :: s.sign.toList) ?_ s.digits_ne s.isDigit) (by simp)
    simp [Scale.chars]
  | none =>
    cases hfraction : n.fraction with
    | none => simp [hscale, hfraction] at h
    | some ds =>
      cases ds with
      | nil => simp [isOpenEnd, isDoubleMark]
      | cons d ds =>
        refine iff_of_false (not_isOpenEnd_of_digits (signPrefix n.negative ++ n.whole ++ ['.']) ?_
          (List.cons_ne_nil d ds) (hdigit _ hfraction)) (by simp)
        simp

/-- The two shapes together: there is a digit, and a point at the end has one in front. -/
theorem regular_or_gapped_iff (n : Numeral) : n.Regular ∨ n.Gapped ↔
    (n.whole ≠ [] ∨ n.fraction.getD [] ≠ []) ∧ (n.fraction = some [] → n.scale ≠ none) := by
  rw [Regular, Gapped]
  rcases hfraction : n.fraction with - | (- | ⟨d, ds⟩) <;> by_cases hwhole : n.whole = [] <;>
    simp [hwhole]

/-- **The value of a numeral** is what the number spelled by its characters is. -/
theorem numberValue?_chars (n : Numeral) (h : n.Regular ∨ n.Gapped) :
    numberValue? n.chars = n.value? := by
  obtain ⟨hdigits, hend⟩ := n.regular_or_gapped_iff.mp h
  rw [numberValue?, any_isDoubleMark_chars, value?]
  cases hnone : n.fraction.isNone && n.scale.isNone with
  | true =>
    rw [Bool.and_eq_true, Option.isNone_iff_eq_none, Option.isNone_iff_eq_none] at hnone
    have hwhole : n.whole ≠ [] := by simpa [hnone.1] using hdigits
    simp [readInt?_chars n hnone.1 hnone.2 hwhole]
  | false =>
    have hclosed : n.chars.getLast?.any isOpenEnd = false := by
      rw [Bool.eq_false_iff, Ne, isOpenEnd_chars_iff n hnone]
      exact fun h => hend h.1 h.2
    simp [readFloat?_chars n hdigits, hclosed]

theorem exists_signPrefix {sign : Option Char} {cs text : List Char}
    (hsign : ∀ c ∈ sign, c = '+' ∨ c = '-') (htext : sign.toList ++ cs = text)
    (hplus : text.head? ≠ some '+') : ∃ negative, signPrefix negative ++ cs = text := by
  cases sign with
  | none => exact ⟨false, htext⟩
  | some c =>
    rcases hsign c rfl with rfl | rfl
    · exact absurd (by rw [← htext]; rfl) hplus
    · exact ⟨true, htext⟩

/-- **Only numerals spell numbers**, among the texts that do not begin with a plus. -/
theorem exists_of_numberValue? {text : List Char} {v : Value} (h : numberValue? text = some v)
    (hplus : text.head? ≠ some '+') :
    ∃ n : Numeral, (n.Regular ∨ n.Gapped) ∧ n.chars = text := by
  rw [numberValue?] at h
  by_cases hmark : text.any isDoubleMark = true
  · rw [if_pos hmark] at h
    cases hx : readFloat? text with
    | none =>
      rw [hx] at h
      cases h
    | some x =>
      obtain ⟨d, hd, -⟩ := Option.map_eq_some_iff.mp hx
      obtain ⟨sign, hsign, htext, -⟩ := exists_sign text
      obtain ⟨negative, hnegative⟩ := exists_signPrefix hsign htext hplus
      obtain ⟨n, rfl, hunsigned, hdigits, -⟩ := exists_of_read? hd negative
      have hchars : n.chars = text := by rw [chars, hunsigned, hnegative]
      refine ⟨n, n.regular_or_gapped_iff.mpr ⟨hdigits, fun hfraction hscale => ?_⟩, hchars⟩
      -- what is left is a point at the end, which no number has
      have hopen := (n.isOpenEnd_chars_iff (by simp [hfraction])).mpr ⟨hfraction, hscale⟩
      rw [hx, ← hchars, hopen] at h
      simp at h
  · rw [if_neg hmark] at h
    obtain ⟨k, hk, -⟩ := Option.map_eq_some_iff.mp h
    obtain ⟨i, hi, -⟩ := Option.bind_eq_some_iff.mp hk
    obtain ⟨sign, ds, hsign, hdigits, htext, -⟩ := readInt?_eq_some_iff.mp hi
    obtain ⟨negative, hnegative⟩ := exists_signPrefix hsign htext hplus
    let n : Numeral := ⟨negative, ds, none, none, hdigits.2, by simp⟩
    exact ⟨n, .inl ⟨hdigits.1, by simp⟩, (n.chars_of_none rfl rfl).trans hnegative⟩

end Numeral

/-- **A text spells a number** exactly if it is a numeral whose value fits. -/
theorem numberValue?_eq_some_iff {text : List Char} {v : Value} (hplus : text.head? ≠ some '+') :
    numberValue? text = some v ↔
      ∃ n : Numeral, (n.Regular ∨ n.Gapped) ∧ n.chars = text ∧ n.value? = some v := by
  constructor
  · intro h
    obtain ⟨n, hn, rfl⟩ := Numeral.exists_of_numberValue? h hplus
    exact ⟨n, hn, rfl, (n.numberValue?_chars hn).symm.trans h⟩
  · rintro ⟨n, hn, rfl, hv⟩
    exact (n.numberValue?_chars hn).trans hv

/-! ## One numeral to a text -/

theorem elim_injective {α : Type} {f : α → List Char} (hf : Function.Injective f)
    (hne : ∀ a, f a ≠ []) {a b : Option α} (h : a.elim [] f = b.elim [] f) : a = b := by
  cases a with
  | none =>
    cases b with
    | none => rfl
    | some b => exact absurd h.symm (hne b)
  | some a =>
    cases b with
    | none => exact absurd h (hne a)
    | some b => exact congrArg some (hf h)

theorem Scale.chars_injective : Function.Injective Scale.chars := by
  intro s s' h
  obtain ⟨hmark, hbehind⟩ := List.cons.inj h
  have hsplit := congrArg splitSign hbehind
  rw [splitSign_sign s.isSign (stops_isSign_of_isDigit s.isDigit),
    splitSign_sign s'.isSign (stops_isSign_of_isDigit s'.isDigit)] at hsplit
  have hdigits := (Prod.mk.inj hsplit).2
  rw [hdigits, List.append_cancel_right_eq] at hbehind
  refine Scale.ext hmark ?_ hdigits
  cases hs : s.sign <;> cases hs' : s'.sign <;> simp_all

/-- **A text is one numeral** at most. -/
theorem Numeral.chars_injective : Function.Injective Numeral.chars := by
  intro n m h
  have hsign := congrArg splitSign h
  rw [splitSign_chars, splitSign_chars] at hsign
  obtain ⟨hnegative, hunsigned⟩ := Prod.mk.inj hsign
  have hwhole := congrArg (List.takeWhile Char.isDigit) hunsigned
  have hbehind := congrArg (List.dropWhile Char.isDigit) hunsigned
  rw [unsigned, unsigned, takeWhile_run n.isDigit_whole n.stops_behind,
    takeWhile_run m.isDigit_whole m.stops_behind] at hwhole
  rw [unsigned, unsigned, dropWhile_run n.isDigit_whole n.stops_behind,
    dropWhile_run m.isDigit_whole m.stops_behind] at hbehind
  have hsplit := congrArg splitFraction hbehind
  rw [splitFraction_chars, splitFraction_chars] at hsplit
  have hscale := (Prod.mk.inj hsplit).2
  rw [hscale, List.append_cancel_right_eq] at hbehind
  have hfraction := elim_injective List.cons_injective (List.cons_ne_nil '.') hbehind
  have hscale := elim_injective Scale.chars_injective (fun _ => List.cons_ne_nil _ _) hscale
  exact Numeral.ext hnegative hwhole hfraction hscale

/-- A text with a gap is no regular numeral. -/
theorem Numeral.Gapped.not_regular {n m : Numeral} (hn : n.Gapped) (h : m.chars = n.chars) :
    ¬ m.Regular := by
  obtain rfl := Numeral.chars_injective h
  rintro ⟨hwhole, hfraction⟩
  rcases hn with ⟨hnone, -⟩ | ⟨-, hpoint, -⟩
  · exact hwhole hnone
  · exact hfraction hpoint

end DataBinding
