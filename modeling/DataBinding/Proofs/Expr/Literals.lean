import DataBinding.Expr.Printer
import DataBinding.Expr.Reader
import DataBinding.Proofs.Decimal.Plain
import DataBinding.Proofs.Number

/-!
# Literal arguments read back

A literal argument is read up to a character that cannot belong to it, and no such character stands
behind an argument.

* `goesOn`: the characters that an argument may go on with.
* `readQuoted_quoteArg`: texts between apostrophes.
* `readNumber_run`: a number that is a value by itself is that value in front of such a text.
* `numberValue?_int64Chars`: integers.
-/

namespace DataBinding

open Text

/-- Whether an argument may go on with the character: it can belong to a reference or a number, or
makes a word a call. -/
def goesOn (c : Char) : Bool :=
  isBindingChar c || c == '('

theorem Stops.mono {p q : Char → Bool} {rest : List Char} (h : Stops q rest)
    (hpq : ∀ c, p c = true → q c = true) : Stops p rest :=
  fun c hc hp => h c hc (hpq c hp)

theorem goesOn_of_isWord {c : Char} (h : isWord c = true) : goesOn c = true := by
  simp [goesOn, isBindingChar, h]

theorem goesOn_of_isBindingChar {c : Char} (h : isBindingChar c = true) : goesOn c = true := by
  simp [goesOn, h]

theorem goesOn_of_isMantissaChar {c : Char} (h : isMantissaChar c = true) : goesOn c = true := by
  rw [isMantissaChar, Bool.or_eq_true] at h
  rcases h with h | h
  · exact goesOn_of_isWord (isWord_of_isDigit h)
  · simp [goesOn, isBindingChar, h]

/-! ## Blanks -/

theorem le_of_isWord {c : Char} (h : isWord c = true) : 0x30 ≤ c.toNat := by
  simp only [isWord, Char.isAlphanum, Char.isAlpha, Char.isUpper, Char.isLower, Char.isDigit,
    Bool.or_eq_true, Bool.and_eq_true, decide_eq_true_eq, beq_iff_eq, UInt32.le_iff_toNat_le] at h
  rcases h with ((h | h) | h) | rfl
  · exact Nat.le_trans (by decide) h.1
  · exact Nat.le_trans (by decide) h.1
  · exact h.1
  · decide

/-- Blanks below U+0080 lie below the digits. -/
theorem not_isBlank_of_isWord {c : Char} (h : isWord c = true) : ¬ isBlank c = true := by
  have hle := le_of_isWord h
  have hlt := isWord_lt h
  simp [isBlank, CharRanges.contains, blankRanges]
  omega

theorem skipBlank_of_stops {cs : List Char} (h : Stops isBlank cs) : skipBlank cs = cs :=
  h.dropWhile_eq

/-! ## Texts -/

/-- **A text between apostrophes reads back.** -/
theorem readQuoted_quoteArg (cs rest : List Char) :
    readQuoted (cs.flatMap (fun c => if c = '\'' ∨ c = '\\' then ['\\', c] else [c]) ++
      '\'' :: rest) = some (cs, rest) := by
  induction cs with
  | nil => rw [List.flatMap_nil, List.nil_append, readQuoted]
  | cons c cs ih =>
    rw [List.flatMap_cons, List.append_assoc]
    by_cases hc : c = '\'' ∨ c = '\\'
    · rw [if_pos hc]
      rcases hc with rfl | rfl
      · rw [List.cons_append, List.cons_append, List.nil_append, readQuoted, ih]
        rfl
      · rw [List.cons_append, List.cons_append, List.nil_append, readQuoted, ih]
        rfl
    · rw [if_neg hc, List.cons_append, List.nil_append, readQuoted, ih]
      · rfl
      all_goals simp_all

/-! ## Numbers -/

theorem spanExponent_of_stops {rest : List Char} (h : Stops isWord rest) :
    spanExponent rest = ([], rest) := by
  unfold spanExponent
  split
  · rename_i c cs
    rw [if_neg]
    rintro (rfl | rfl)
    · exact h 'e' rfl (by decide)
    · exact h 'E' rfl (by decide)
  · rfl

/-- Digits and points are a number up to a text that cannot go on with it. -/
theorem spanUnsigned_run {cs rest : List Char} (hcs : ∀ c ∈ cs, isMantissaChar c = true)
    (hrest : Stops goesOn rest) : spanUnsigned (cs ++ rest) = (cs, rest) := by
  have hmantissa := hrest.mono fun _ => goesOn_of_isMantissaChar
  rw [spanUnsigned, dropWhile_run hcs hmantissa, takeWhile_run hcs hmantissa,
    spanExponent_of_stops (hrest.mono fun _ => goesOn_of_isWord)]
  simp

theorem spanNumber_run {negative : Bool} {cs rest : List Char}
    (hcs : ∀ c ∈ cs, isMantissaChar c = true) (hrest : Stops goesOn rest) (hne : cs ≠ []) :
    spanNumber (signPrefix negative ++ cs ++ rest) = (signPrefix negative ++ cs, rest) := by
  cases negative with
  | true =>
    change spanNumber ('-' :: (cs ++ rest)) = _
    rw [spanNumber, spanUnsigned_run hcs hrest]
    rfl
  | false =>
    change spanNumber (cs ++ rest) = _
    rw [spanNumber, spanUnsigned_run hcs hrest]
    · rfl
    · intro ds hds
      obtain ⟨c, cs, rfl⟩ := List.exists_cons_of_ne_nil hne
      obtain rfl := (List.cons.inj hds).1
      exact absurd (hcs '-' List.mem_cons_self) (by decide)

/-- **A number reads back** in front of a text that cannot go on with it. -/
theorem readNumber_run {negative : Bool} {cs rest : List Char} {v : Value}
    (hcs : ∀ c ∈ cs, isMantissaChar c = true) (hne : cs ≠ []) (hrest : Stops goesOn rest)
    (hv : numberValue? (signPrefix negative ++ cs) = some v) :
    readNumber (signPrefix negative ++ cs ++ rest) = .ok (v, rest) := by
  have hword : rest.head?.any isWord = false := by
    cases hhead : rest.head? with
    | none => rfl
    | some c => exact Bool.eq_false_iff.mpr fun hc => hrest c hhead (goesOn_of_isWord hc)
  rw [readNumber, spanNumber_run hcs hrest hne]
  simp only [hword, hv]
  rfl

/-! ## Integers -/

theorem int64Chars_eq (n : Int64) :
    int64Chars n = signPrefix (decide (n.toInt < 0)) ++ Nat.toDigits 10 n.toInt.natAbs := by
  rw [int64Chars, intChars]
  by_cases h : n.toInt < 0
  · simp [signPrefix, h]
  · simp [signPrefix, h]

theorem literalChars_int (n : Int64) : literalChars (.int n) = int64Chars n := by
  simp [literalChars]

theorem isMantissaChar_of_mem_toDigits {n : Nat} {c : Char} (h : c ∈ Nat.toDigits 10 n) :
    isMantissaChar c = true := by
  rw [isMantissaChar, isDigit_of_mem_toDigits h, Bool.true_or]

theorem readNat?_toDigits (n : Nat) : readNat? (Nat.toDigits 10 n) = some n := by
  rw [readNat?, if_pos ⟨Nat.toDigits_ne_nil, List.all_eq_true.mpr fun _ => isDigit_of_mem_toDigits⟩,
    Nat.ofDigitChars_ten_toDigits]

theorem not_isDoubleMark_of_isDigit {c : Char} (h : c.isDigit = true) :
    ¬ isDoubleMark c = true := by
  intro hmark
  simp only [isDoubleMark, Bool.or_eq_true, beq_iff_eq] at hmark
  rcases hmark with (rfl | rfl) | rfl <;> revert h <;> decide

theorem signPrefix_any_isDoubleMark (negative : Bool) :
    (signPrefix negative).any isDoubleMark = false := by
  cases negative <;> decide

/-- The digits of a 64-bit integer spell it. -/
theorem readInt?_int64Chars (n : Int64) : readInt? (int64Chars n) = some n.toInt := by
  have hsign : (if decide (n.toInt < 0) = true then -(n.toInt.natAbs : Int) else n.toInt.natAbs) =
      n.toInt := by
    by_cases h : n.toInt < 0
    · rw [if_pos (decide_eq_true h)]
      omega
    · rw [if_neg (by simpa using h)]
      omega
  rw [int64Chars_eq, readInt?, splitSign_signPrefix _ (head?_toDigits _), readNat?_toDigits]
  exact congrArg some hsign

/-- **A 64-bit integer reads back.** -/
theorem numberValue?_int64Chars (n : Int64) : numberValue? (int64Chars n) = some (.int n) := by
  have hmark : (int64Chars n).any isDoubleMark = false := by
    rw [int64Chars_eq, List.any_append, signPrefix_any_isDoubleMark, Bool.false_or,
      List.any_eq_false]
    exact fun c hc => not_isDoubleMark_of_isDigit (isDigit_of_mem_toDigits hc)
  rw [numberValue?, if_neg (by simp [hmark]), readInt?_int64Chars, Option.bind_some,
    toInt64?_toInt]
  rfl

/-! ## Doubles -/

theorem not_isOpenEnd_of_isDigit {c : Char} (h : c.isDigit = true) : isOpenEnd c = false := by
  rw [isOpenEnd, Bool.eq_false_iff.mpr (not_isDoubleMark_of_isDigit h), Bool.false_or,
    Bool.or_eq_false_iff, beq_eq_false_iff_ne, beq_eq_false_iff_ne]
  constructor <;> rintro rfl <;> cases h

/-- Plain notation has a point. -/
theorem IsPlain.any_isDoubleMark {cs whole fraction : List Char} {v : ℚ}
    (h : IsPlain cs whole fraction v) : cs.any isDoubleMark = true := by
  rw [h.eq, List.any_append, List.any_cons]
  simp [isDoubleMark]

/-- Plain notation ends in a digit. -/
theorem IsPlain.getLast?_eq {cs whole fraction : List Char} {v : ℚ}
    (h : IsPlain cs whole fraction v) : ∃ c, cs.getLast? = some c ∧ c.isDigit = true := by
  have heq := h.eq
  have hne := h.fraction_ne
  refine ⟨fraction.getLast hne, ?_, h.isDigit_fraction _ (List.getLast_mem hne)⟩
  rw [heq, List.getLast?_append, List.getLast?_cons, List.getLast?_eq_some_getLast hne]
  rfl

theorem IsPlain.isMantissaChar {cs whole fraction : List Char} {v : ℚ}
    (h : IsPlain cs whole fraction v) : ∀ c ∈ cs, isMantissaChar c = true := by
  intro c hc
  rw [h.eq, List.mem_append, List.mem_cons] at hc
  rcases hc with hc | rfl | hc
  · rw [DataBinding.isMantissaChar, h.isDigit_whole c hc, Bool.true_or]
  · decide
  · rw [DataBinding.isMantissaChar, h.isDigit_fraction c hc, Bool.true_or]

/-- **A finite double reads back.** -/
theorem numberValue?_plainText {x : Float} (h : x.isFinite = true) :
    numberValue? (plainText x) = some (.double x) := by
  obtain ⟨whole, fraction, hplain⟩ := (Decimal.shortest .up x.abs).exists_isPlain
  obtain ⟨c, hlast, hdigit⟩ := hplain.getLast?_eq
  have hread := readFloat?_plainText h
  rw [plainText_eq h] at hread ⊢
  rw [numberValue?, List.any_append, hplain.any_isDoubleMark, Bool.or_true, if_pos rfl, hread,
    List.getLast?_append, hlast, Option.some_or, Option.any_some, not_isOpenEnd_of_isDigit hdigit]
  simp [h]

end DataBinding
