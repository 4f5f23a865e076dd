import DataBinding.Proofs.Decimal.Quick
import DataBinding.Proofs.Expr.Literals
import DataBinding.Proofs.Json.Grammar

/-!
# Strings and numbers in JSON text

What the reader of JSON text makes of strings and numbers as they are printed, in front of whatever
text stands behind them. A number has to be told from that text: behind a printed number stands no
character that a number may go on with.

* `Json.string?_flatMap`: a string reads back, whatever characters it has.
* `Json.number?_int64Chars`: so does a 64-bit integer.
* `Json.takeNumber?_plain`, `Json.takeNumber?_scientific`: the two notations of a double.
* `Json.number?_jsonText`: so does a finite double, if its digits and the power of ten are doubles.
-/

namespace DataBinding

open Text

/-- What is taken, and the text that is left. -/
def Text.Taken.pair {α : Type} {cs : List Char} (t : Taken α cs) : α × List Char :=
  (t.value, t.rest)

namespace Json

variable {cs rest : List Char}

/-! ## Strings -/

theorem string?_plain {c : Char} (h : c ≠ '"') (h' : c ≠ '\\') (hc : ¬ c.toNat < 0x20) :
    string? (c :: rest) = (string? rest).map fun r => (c :: r.1, r.2) := by
  rw [string?, if_neg hc]
  all_goals simp_all

theorem string?_escaped {c e : Char} (h : escaped? e = some c) :
    string? ('\\' :: e :: rest) = (string? rest).map fun r => (c :: r.1, r.2) := by
  have he : e ≠ 'u' := by
    rintro rfl
    cases h
  rw [string?, h]
  simp_all

/-- No character has the number of a half of a pair. -/
theorem not_isTrail_or_isLead (c : Char) : isTrail c.toNat = false ∧ isLead c.toNat = false := by
  have hvalid : c.toNat < 0xd800 ∨ 0xdfff < c.toNat ∧ c.toNat < 0x110000 := c.valid
  simp only [isTrail, isLead, Bool.and_eq_false_iff, decide_eq_false_iff_not]
  omega

theorem string?_code {c h₁ h₂ h₃ h₄ : Char} (h : hex4? h₁ h₂ h₃ h₄ = some c.toNat) :
    string? ('\\' :: 'u' :: h₁ :: h₂ :: h₃ :: h₄ :: rest) =
      (string? rest).map fun r => (c :: r.1, r.2) := by
  obtain ⟨htrail, hlead⟩ := not_isTrail_or_isLead c
  rw [string?, h]
  simp only [htrail, hlead, Char.ofNat_toNat]
  rfl

theorem string?_pair {c h₁ h₂ h₃ h₄ l₁ l₂ l₃ l₄ : Char} {lead trail : Nat}
    (hlead : hex4? h₁ h₂ h₃ h₄ = some lead) (hisLead : isLead lead = true)
    (htrail : hex4? l₁ l₂ l₃ l₄ = some trail) (hisTrail : isTrail trail = true)
    (hc : c.toNat = 0x10000 + (lead - 0xd800) * 0x400 + (trail - 0xdc00)) :
    string? ('\\' :: 'u' :: h₁ :: h₂ :: h₃ :: h₄ :: '\\' :: 'u' :: l₁ :: l₂ :: l₃ :: l₄ :: rest) =
      (string? rest).map fun r => (c :: r.1, r.2) := by
  have hnot : isTrail lead = false := by
    simp only [isLead, Bool.and_eq_true, decide_eq_true_eq] at hisLead
    simp only [isTrail, Bool.and_eq_false_iff, decide_eq_false_iff_not]
    omega
  rw [string?, hlead]
  simp only [hnot, hisLead, htrail, hisTrail, ← hc, Char.ofNat_toNat]
  rfl

/-- The two hexadecimal digits of a control spell it. -/
theorem hex4?_control : ∀ n < 0x20,
    hex4? '0' '0' (hexDigit (n / 16)) (hexDigit (n % 16)) = some n := by
  decide

/-- Every character is printed in a way that it may be spelled. -/
theorem StringBody.jsonChar (c : Char) {s cs : List Char} (h : StringBody s cs) :
    StringBody (c :: s) (jsonChar c ++ cs) := by
  unfold DataBinding.jsonChar
  split
  · rename_i hc
    rcases hc with rfl | rfl <;> exact .letter rfl h
  · rename_i hc
    obtain ⟨hquote, hbackslash⟩ := not_or.mp hc
    split
    · rename_i hb
      exact hb ▸ .letter rfl h
    split
    · rename_i hf
      exact hf ▸ .letter rfl h
    split
    · rename_i hn
      exact hn ▸ .letter rfl h
    split
    · rename_i hr
      exact hr ▸ .letter rfl h
    split
    · rename_i ht
      exact ht ▸ .letter rfl h
    split
    · rename_i hcontrol
      exact .code (hex4?_control c.toNat hcontrol) h
    · rename_i hcontrol
      exact .plain hquote hbackslash hcontrol h

theorem spelledString_jsonString (s : String) : SpelledString s (jsonString s) := by
  refine ⟨s.toList.flatMap DataBinding.jsonChar, ?_, rfl⟩
  induction s.toList with
  | nil => exact .nil
  | cons c cs ih =>
    rw [List.flatMap_cons]
    exact ih.jsonChar c

/-- **A string is read however it is spelled**, up to its closing quotation mark. -/
theorem string?_of_body {s : List Char} (h : StringBody s cs) (rest : List Char) :
    string? (cs ++ '"' :: rest) = some (s, rest) := by
  induction h with
  | nil => rw [List.nil_append, string?]
  | plain hquote hbackslash hcontrol _ ih =>
    rw [List.cons_append, string?_plain hquote hbackslash hcontrol, ih]
    rfl
  | letter he _ ih =>
    rw [List.cons_append, List.cons_append, string?_escaped he, ih]
    rfl
  | code hn _ ih =>
    simp only [List.cons_append]
    rw [string?_code hn, ih]
    rfl
  | pair hlead hisLead htrail hisTrail hc _ ih =>
    simp only [List.cons_append]
    rw [string?_pair hlead hisLead htrail hisTrail hc, ih]
    rfl

/-! ## Parts of numbers -/

/-- Whether a number may go on with the character. -/
def isNumberChar (c : Char) : Bool :=
  c.isDigit || c == '.' || c == 'e' || c == 'E'

theorem stops_isDigit (h : Stops isNumberChar rest) : Stops Char.isDigit rest :=
  h.mono fun c hc => by rw [isNumberChar, hc]; rfl

theorem takeFraction?_of_stops (h : ∀ c, rest.head? = some c → c ≠ '.') :
    takeFraction? rest = some ([], rest) := by
  unfold takeFraction?
  split
  · exact absurd rfl (h '.' rfl)
  · rfl

theorem takeFraction?_run {fraction : List Char} (hfraction : ∀ c ∈ fraction, c.isDigit = true)
    (hne : fraction ≠ []) (h : Stops Char.isDigit rest) :
    takeFraction? ('.' :: (fraction ++ rest)) = some (fraction, rest) := by
  rw [takeFraction?, takeWhile_run hfraction h, dropWhile_run hfraction h]
  cases fraction with
  | nil => exact absurd rfl hne
  | cons c cs => rfl

theorem takeExponent?_of_stops (h : ∀ c, rest.head? = some c → c ≠ 'e' ∧ c ≠ 'E') :
    takeExponent? rest = some (none, rest) := by
  unfold takeExponent?
  split
  · obtain ⟨hlower, hupper⟩ := h _ rfl
    rw [if_neg (not_or.mpr ⟨hlower, hupper⟩)]
  · rfl

/-- An exponent as it is written. -/
def exponentChars (e : Int) : List Char :=
  'e' :: (if e < 0 then '-' else '+') :: Nat.toDigits 10 e.natAbs

theorem takeExponent?_run (e : Int) (h : Stops Char.isDigit rest) :
    takeExponent? (exponentChars e ++ rest) = some (some e, rest) := by
  have hdigits : ∀ c ∈ Nat.toDigits 10 e.natAbs, c.isDigit = true :=
    fun c hc => isDigit_of_mem_toDigits hc
  have hsign : splitSign ((if e < 0 then '-' else '+') :: (Nat.toDigits 10 e.natAbs ++ rest)) =
      (decide (e < 0), Nat.toDigits 10 e.natAbs ++ rest) := by
    by_cases he : e < 0
    · rw [if_pos he, decide_eq_true he, splitSign]
    · rw [if_neg he, decide_eq_false he, splitSign]
  rw [exponentChars, List.cons_append, List.cons_append, takeExponent?, if_pos (.inl rfl), hsign]
  simp only [takeWhile_run hdigits h, dropWhile_run hdigits h]
  have hvalue : (if decide (e < 0) = true then -(e.natAbs : Int) else e.natAbs) = e := by
    by_cases he : e < 0
    · rw [if_pos (decide_eq_true he)]
      omega
    · rw [if_neg (by simpa using he)]
      omega
  split
  · rename_i hnil
    exact absurd hnil Nat.toDigits_ne_nil
  · rename_i hnonempty
    rw [Nat.ofDigitChars_ten_toDigits, hvalue]

/-- Digits that fit 64 bits are all taken. -/
theorem absorb_eq (n : Nat) (cs : List Char) (h : Nat.ofDigitChars 10 cs n < UInt64.size) :
    absorb n cs = (Nat.ofDigitChars 10 cs n, []) := by
  induction cs generalizing n with
  | nil => rfl
  | cons c cs ih =>
    rw [Nat.ofDigitChars_cons, Nat.mul_comm] at h ⊢
    have hle : n * 10 + (c.toNat - '0'.toNat) ≤
        Nat.ofDigitChars 10 cs (n * 10 + (c.toNat - '0'.toNat)) := by
      rw [Nat.ofDigitChars_eq_ofDigitChars_zero]
      exact Nat.le_add_right_of_le (Nat.le_mul_of_pos_left _ (Nat.pow_pos (by decide)))
    rw [absorb]
    simp only [if_pos (Nat.lt_of_le_of_lt hle h)]
    exact ih _ h

theorem double?_eq {negative : Bool} {whole fraction : List Char} {e : Int}
    (h : Nat.ofDigitChars 10 (whole ++ fraction) 0 < UInt64.size) :
    double? negative whole fraction e =
      (scale? (Nat.ofDigitChars 10 (whole ++ fraction) 0) (e - fraction.length)).map fun x =>
        .double (if negative then -x else x) := by
  rw [Nat.ofDigitChars_append] at h ⊢
  have hwhole : Nat.ofDigitChars 10 whole 0 < UInt64.size := by
    have hsplit := @Nat.ofDigitChars_eq_ofDigitChars_zero fraction (Nat.ofDigitChars 10 whole 0)
    refine Nat.lt_of_le_of_lt ?_ h
    rw [hsplit]
    exact Nat.le_add_right_of_le (Nat.le_mul_of_pos_left _ (Nat.pow_pos (by decide)))
  rw [double?, absorb_eq 0 whole hwhole]
  simp only [absorb_eq _ fraction h, List.length_nil, Nat.sub_zero, Int.natCast_zero, Int.add_zero]

/-! ## Numbers -/

theorem isWhole_cons {c : Char} (h : c ≠ '0') (cs : List Char) : isWhole (c :: cs) = true := by
  unfold isWhole
  split
  · rename_i hnil
    cases hnil
  · rfl
  · rename_i heq
    obtain ⟨rfl, -⟩ := List.cons.inj heq
    simpa using h

/-- The digits of a number do not begin with zero. -/
theorem exists_toDigits_eq {n : Nat} (hn : 0 < n) :
    ∃ c cs, Nat.toDigits 10 n = c :: cs ∧ c ≠ '0' := by
  induction n using Nat.strongRecOn with
  | _ n ih =>
    by_cases h : n < 10
    · refine ⟨n.digitChar, [], Nat.toDigits_of_lt_base h, ?_⟩
      have hdigit : ∀ m < 10, 0 < m → m.digitChar ≠ '0' := by decide
      exact hdigit n h hn
    · obtain ⟨c, cs, heq, hc⟩ := ih (n / 10) (by omega) (by omega)
      rw [Nat.toDigits_of_base_le (by decide) (by omega), heq]
      exact ⟨c, _, rfl, hc⟩

theorem isWhole_toDigits (n : Nat) : isWhole (Nat.toDigits 10 n) = true := by
  rcases Nat.eq_zero_or_pos n with rfl | hn
  · rfl
  · obtain ⟨c, cs, heq, hc⟩ := exists_toDigits_eq hn
    rw [heq]
    exact isWhole_cons hc cs

section Numbers

variable {negative : Bool} {whole fraction : List Char}

theorem not_point_of_stops (h : Stops isNumberChar rest) :
    ∀ c, rest.head? = some c → c ≠ '.' := by
  rintro c hc rfl
  exact h '.' hc (by decide)

theorem not_mark_of_stops (h : Stops isNumberChar rest) :
    ∀ c, rest.head? = some c → c ≠ 'e' ∧ c ≠ 'E' := by
  refine fun c hc => ⟨?_, ?_⟩
  · rintro rfl
    exact h 'e' hc (by decide)
  · rintro rfl
    exact h 'E' hc (by decide)

/-- Digits alone are an integer. -/
theorem takeNumber?_whole (hwhole : isWhole whole = true)
    (hdigits : ∀ c ∈ whole, c.isDigit = true) (h : Stops isNumberChar rest) :
    takeNumber? negative (whole ++ rest) = (integer? negative whole).map (·, rest) := by
  have hstops := stops_isDigit h
  rw [takeNumber?, takeWhile_run hdigits hstops, dropWhile_run hdigits hstops,
    takeFraction?_of_stops (not_point_of_stops h)]
  simp only [takeExponent?_of_stops (not_mark_of_stops h), hwhole]
  rfl

/-- Digits with a point are a double. -/
theorem takeNumber?_plain (hwhole : isWhole whole = true)
    (hdigits : ∀ c ∈ whole, c.isDigit = true)
    (hfraction : ∀ c ∈ fraction, c.isDigit = true) (hne : fraction ≠ [])
    (h : Stops isNumberChar rest) :
    takeNumber? negative (whole ++ '.' :: fraction ++ rest) =
      (double? negative whole fraction 0).map (·, rest) := by
  have hpoint : Stops Char.isDigit ('.' :: (fraction ++ rest)) := stops_cons (by decide) _
  have hempty : fraction.isEmpty = false := List.isEmpty_eq_false_iff.mpr hne
  rw [List.append_assoc, List.cons_append, takeNumber?, takeWhile_run hdigits hpoint,
    dropWhile_run hdigits hpoint, takeFraction?_run hfraction hne (stops_isDigit h)]
  simp only [takeExponent?_of_stops (not_mark_of_stops h), hwhole, hempty]
  rfl

/-- A digit, more behind a point if there are any, and an exponent are a double. -/
theorem takeNumber?_scientific {c : Char} (hc : c ≠ '0') (hdigit : c.isDigit = true)
    (hfraction : ∀ c ∈ fraction, c.isDigit = true) (e : Int) (h : Stops isNumberChar rest) :
    takeNumber? negative
      (c :: (if fraction = [] then [] else '.' :: fraction) ++ exponentChars e ++ rest) =
        (double? negative [c] fraction e).map (·, rest) := by
  have hexponent := takeExponent?_run e (stops_isDigit h)
  have hmark : Stops Char.isDigit (exponentChars e ++ rest) := stops_cons (by decide) _
  have hone : ∀ d ∈ [c], d.isDigit = true := by
    intro d hd
    rwa [List.mem_singleton.mp hd]
  have hwhole := isWhole_cons hc []
  by_cases hnil : fraction = []
  · subst hnil
    have hfraction : takeFraction? (exponentChars e ++ rest) = some ([], exponentChars e ++ rest) :=
      takeFraction?_of_stops (by simp [exponentChars])
    have htext : c :: (if ([] : List Char) = [] then [] else '.' :: []) ++ exponentChars e ++ rest =
        [c] ++ (exponentChars e ++ rest) := by
      simp
    rw [htext, takeNumber?, takeWhile_run hone hmark, dropWhile_run hone hmark, hfraction]
    simp only [hexponent, hwhole]
    rfl
  · have hpoint : Stops Char.isDigit ('.' :: (fraction ++ (exponentChars e ++ rest))) :=
      stops_cons (by decide) _
    have htext : c :: (if fraction = [] then [] else '.' :: fraction) ++ exponentChars e ++ rest =
        [c] ++ '.' :: (fraction ++ (exponentChars e ++ rest)) := by
      simp [hnil]
    rw [htext, takeNumber?, takeWhile_run hone hpoint, dropWhile_run hone hpoint,
      takeFraction?_run hfraction hnil hmark]
    simp only [hexponent, hwhole]
    rw [Option.isNone_some, Bool.and_false]
    rfl

end Numbers

/-! ## Numbers in front of other text -/

section Append

theorem takeWhile_append_of_stops {p : Char → Bool} (cs : List Char) (h : Stops p rest) :
    (cs ++ rest).takeWhile p = cs.takeWhile p := by
  induction cs with
  | nil => exact h.takeWhile_eq
  | cons c cs ih =>
    rw [List.cons_append, List.takeWhile_cons, List.takeWhile_cons, ih]

theorem dropWhile_append_of_stops {p : Char → Bool} (cs : List Char) (h : Stops p rest) :
    (cs ++ rest).dropWhile p = cs.dropWhile p ++ rest := by
  induction cs with
  | nil => exact h.dropWhile_eq
  | cons c cs ih =>
    rw [List.cons_append, List.dropWhile_cons, List.dropWhile_cons, ih]
    split <;> rfl

theorem takeFraction?_append {fraction left : List Char}
    (h : takeFraction? cs = some (fraction, left)) (hrest : Stops isNumberChar rest) :
    takeFraction? (cs ++ rest) = some (fraction, left ++ rest) := by
  unfold takeFraction? at h
  split at h
  · rename_i ds
    rw [List.cons_append, takeFraction?, takeWhile_append_of_stops ds (stops_isDigit hrest),
      dropWhile_append_of_stops ds (stops_isDigit hrest)]
    split at h
    · cases h
    · rename_i hdigits
      obtain ⟨rfl, rfl⟩ := Prod.mk.inj (Option.some.inj h)
      rfl
  · rename_i hpoint
    obtain ⟨rfl, rfl⟩ := Prod.mk.inj (Option.some.inj h)
    refine takeFraction?_of_stops fun c hc => ?_
    cases cs with
    | nil => exact not_point_of_stops hrest c hc
    | cons d ds =>
      rintro rfl
      exact hpoint ds (congrArg (· :: ds) (Option.some.inj hc))

theorem splitSign_append {ds : List Char} (h : ds ≠ []) :
    splitSign (ds ++ rest) = ((splitSign ds).1, (splitSign ds).2 ++ rest) := by
  obtain ⟨c, ds, rfl⟩ := List.exists_cons_of_ne_nil h
  by_cases hminus : c = '-'
  · subst hminus
    rfl
  by_cases hplus : c = '+'
  · subst hplus
    rfl
  have hplain : ∀ cs, splitSign (c :: cs) = (false, c :: cs) := fun cs => by
    unfold splitSign
    split <;> simp_all
  rw [List.cons_append, hplain, hplain]
  rfl

theorem takeExponent?_append {e : Option Int} {left : List Char}
    (h : takeExponent? cs = some (e, left)) (hrest : Stops isNumberChar rest) :
    takeExponent? (cs ++ rest) = some (e, left ++ rest) := by
  cases cs with
  | nil =>
    obtain ⟨rfl, rfl⟩ := Prod.mk.inj (Option.some.inj h)
    exact takeExponent?_of_stops (not_mark_of_stops hrest)
  | cons c ds =>
    rw [takeExponent?] at h
    rw [List.cons_append, takeExponent?]
    split at h
    · rename_i hmark
      rw [if_pos hmark]
      -- a mark alone is no exponent, so there is something behind it that may be a sign
      have hne : ds ≠ [] := by
        rintro rfl
        cases h
      rw [splitSign_append hne]
      dsimp only at h ⊢
      rw [takeWhile_append_of_stops _ (stops_isDigit hrest),
        dropWhile_append_of_stops _ (stops_isDigit hrest)]
      split at h
      · cases h
      · obtain ⟨rfl, rfl⟩ := Prod.mk.inj (Option.some.inj h)
        rfl
    · rename_i hmark
      obtain ⟨rfl, rfl⟩ := Prod.mk.inj (Option.some.inj h)
      rw [if_neg hmark]
      rfl

theorem takeNumber?_append {negative : Bool} {n : Number} {left : List Char}
    (h : takeNumber? negative cs = some (n, left)) (hrest : Stops isNumberChar rest) :
    takeNumber? negative (cs ++ rest) = some (n, left ++ rest) := by
  have hdigits := stops_isDigit hrest
  unfold takeNumber? at h ⊢
  rw [takeWhile_append_of_stops cs hdigits, dropWhile_append_of_stops cs hdigits]
  dsimp only at h ⊢
  split at h
  · rename_i hwhole
    rw [if_pos hwhole]
    split at h
    · cases h
    · rename_i hfraction
      rw [takeFraction?_append hfraction hrest]
      dsimp only
      split at h
      · cases h
      · rename_i hexponent
        rw [takeExponent?_append hexponent hrest]
        obtain ⟨m, hm, he⟩ := Option.map_eq_some_iff.mp h
        obtain ⟨rfl, rfl⟩ := Prod.mk.inj he
        exact Option.map_eq_some_iff.mpr ⟨m, hm, rfl⟩
  · cases h

end Append

/-! ## What a double is written as -/

section Doubles

variable {negative : Bool} {d : Decimal}

theorem read_written {whole fraction : List Char} {e : Int} (hd : d.written.digits ≤ 10 ^ 17)
    (hdigits : Nat.ofDigitChars 10 (whole ++ fraction) 0 = d.written.digits)
    (he : e - fraction.length = d.written.exponent) :
    double? negative whole fraction e =
      (scale? d.written.digits d.written.exponent).map fun x =>
        .double (if negative then -x else x) := by
  have hlt : 10 ^ 17 < UInt64.size := by decide
  rw [double?_eq (by omega), hdigits, he]

theorem digits_pos (hn : d.Normal) (h : d.exponent ≠ 0) : 0 < d.digits :=
  Nat.pos_of_ne_zero fun hzero => h (by rw [hn hzero])

/-- A whole number is read with the zero behind its point. -/
theorem takeNumber?_plain_whole (hn : d.Normal) (hd : d.written.digits ≤ 10 ^ 17)
    (hnonneg : 0 ≤ d.exponent) (hleading : d.leading ≤ 15) (h : Stops isNumberChar rest) :
    takeNumber? negative (d.plain ++ rest) =
      ((scale? d.written.digits d.written.exponent).map fun x =>
        Number.double (if negative then -x else x)).map (·, rest) := by
  have hwritten : d.written = ⟨d.digits * 10 ^ (d.exponent.toNat + 1), -1⟩ := by
    rw [Decimal.written, if_pos ⟨hnonneg, hleading⟩]
  have hplain := Decimal.isPlain_whole d.digits d.exponent.toNat
  have hwhole :
      isWhole (Nat.toDigits 10 d.digits ++ List.replicate d.exponent.toNat '0') = true := by
    by_cases hzero : d.digits = 0
    · rw [hn hzero]
      rfl
    · obtain ⟨c, cs, heq, hc⟩ := exists_toDigits_eq (Nat.pos_of_ne_zero hzero)
      rw [heq]
      exact isWhole_cons hc _
  have hdigits : Nat.ofDigitChars 10
      (Nat.toDigits 10 d.digits ++ List.replicate d.exponent.toNat '0' ++ ['0']) 0 =
        d.written.digits := by
    rw [hwritten, Nat.ofDigitChars_append, Nat.ofDigitChars_append, Nat.ofDigitChars_ten_toDigits,
      Nat.ofDigitChars_replicate_zero]
    change 10 * (10 ^ d.exponent.toNat * d.digits) + 0 = _
    ring
  have he : (0 : Int) - (['0'] : List Char).length = d.written.exponent := by
    rw [hwritten]
    rfl
  rw [Decimal.plain, if_pos hnonneg, ← read_written hd hdigits he]
  exact takeNumber?_plain hwhole hplain.isDigit_whole hplain.isDigit_fraction hplain.fraction_ne h

/-- Zeros stand before the digits only where the number is below one. -/
theorem isWhole_take {n : Nat} (hn : 0 < n) (k : Nat) :
    isWhole ((List.replicate (k + 1 - (Nat.toDigits 10 n).length) '0' ++ Nat.toDigits 10 n).take
      ((List.replicate (k + 1 - (Nat.toDigits 10 n).length) '0' ++ Nat.toDigits 10 n).length - k)) =
        true := by
  obtain ⟨c, cs, heq, hc⟩ := exists_toDigits_eq hn
  rw [List.length_append, List.length_replicate]
  by_cases hle : k + 1 ≤ (Nat.toDigits 10 n).length
  · obtain ⟨j, hj⟩ : ∃ j, (Nat.toDigits 10 n).length - k = j + 1 :=
      ⟨(Nat.toDigits 10 n).length - k - 1, by omega⟩
    rw [Nat.sub_eq_zero_of_le hle, List.replicate_zero, List.nil_append, Nat.zero_add, hj, heq,
      List.take_succ_cons]
    exact isWhole_cons hc _
  · obtain ⟨j, hj⟩ : ∃ j, k + 1 - (Nat.toDigits 10 n).length = j + 1 :=
      ⟨k - (Nat.toDigits 10 n).length, by omega⟩
    have hone : j + 1 + (Nat.toDigits 10 n).length - k = 1 := by omega
    rw [hj, hone, List.replicate_succ, List.cons_append, List.take_succ_cons, List.take_zero]
    rfl

theorem takeNumber?_plain_split (hn : d.Normal) (hd : d.written.digits ≤ 10 ^ 17)
    (hneg : d.exponent < 0) (h : Stops isNumberChar rest) :
    takeNumber? negative (d.plain ++ rest) =
      ((scale? d.written.digits d.written.exponent).map fun x =>
        Number.double (if negative then -x else x)).map (·, rest) := by
  have hwritten : d.written = d := by
    rw [Decimal.written, if_neg fun hnonneg => absurd hnonneg.1 (by omega)]
  obtain ⟨k, hk⟩ : ∃ k, (-d.exponent).toNat = k := ⟨_, rfl⟩
  -- zeros stand in front until one digit is before the point
  obtain ⟨padded, hpadded⟩ : ∃ padded, padded =
      List.replicate (k + 1 - (Nat.toDigits 10 d.digits).length) '0' ++ Nat.toDigits 10 d.digits :=
    ⟨_, rfl⟩
  have hlength : k < padded.length := by
    rw [hpadded, List.length_append, List.length_replicate]
    omega
  have hplain := Decimal.isPlain_split d.digits (by omega) hpadded hlength
  have hwhole := isWhole_take (digits_pos hn (by omega)) k
  rw [← hpadded] at hwhole
  have hdigits : Nat.ofDigitChars 10
      (padded.take (padded.length - k) ++ padded.drop (padded.length - k)) 0 =
        d.written.digits := by
    rw [hwritten, List.take_append_drop, hpadded, Nat.ofDigitChars_append,
      Nat.ofDigitChars_replicate_zero, Nat.mul_zero, Nat.ofDigitChars_ten_toDigits]
  have he : (0 : Int) - (padded.drop (padded.length - k)).length = d.written.exponent := by
    rw [hwritten, List.length_drop]
    omega
  have htext : d.plain =
      padded.take (padded.length - k) ++ '.' :: padded.drop (padded.length - k) := by
    rw [Decimal.plain, if_neg (by omega), hpadded, ← hk]
    rfl
  rw [htext, ← read_written hd hdigits he]
  exact takeNumber?_plain hwhole hplain.isDigit_whole hplain.isDigit_fraction hplain.fraction_ne h

theorem takeNumber?_scientific_decimal (hn : d.Normal) (hd : d.written.digits ≤ 10 ^ 17)
    (hleading : ¬ (-5 ≤ d.leading ∧ d.leading ≤ 15)) (h : Stops isNumberChar rest) :
    takeNumber? negative (d.scientific ++ rest) =
      ((scale? d.written.digits d.written.exponent).map fun x =>
        Number.double (if negative then -x else x)).map (·, rest) := by
  have hpos : 0 < d.digits := by
    refine Nat.pos_of_ne_zero fun hzero => hleading ?_
    rw [hn hzero]
    decide
  have hwritten : d.written = d := by
    refine if_neg fun hplain => hleading ⟨?_, hplain.2⟩
    have := hplain.1
    rw [Decimal.leading]
    omega
  obtain ⟨c, fraction, heq, hc⟩ := exists_toDigits_eq hpos
  have hisDigit : ∀ d ∈ c :: fraction, d.isDigit = true := by
    rw [← heq]
    exact fun d hd => isDigit_of_mem_toDigits hd
  have hlead : d.leading = d.exponent + fraction.length := by
    rw [Decimal.leading, Decimal.digitChars, heq, List.length_cons]
    omega
  have hdigits : Nat.ofDigitChars 10 ([c] ++ fraction) 0 = d.written.digits := by
    rw [hwritten, List.cons_append, List.nil_append, ← heq, Nat.ofDigitChars_ten_toDigits]
  have he : d.leading - fraction.length = d.written.exponent := by
    rw [hwritten, hlead]
    omega
  have htext : d.scientific =
      c :: (if fraction = [] then [] else '.' :: fraction) ++ exponentChars d.leading := by
    rw [Decimal.scientific, Decimal.digitChars, heq]
    cases fraction with
    | nil => rfl
    | cons c' rest => rfl
  rw [htext, ← read_written hd hdigits he]
  exact takeNumber?_scientific hc (hisDigit c List.mem_cons_self)
    (fun d hd => hisDigit d (List.mem_cons_of_mem c hd)) d.leading h

/-- **What is written for a double is read** by its digits and its power of ten, whichever notation
it has. -/
theorem takeNumber?_json (hn : d.Normal) (hd : d.written.digits ≤ 10 ^ 17)
    (h : Stops isNumberChar rest) :
    takeNumber? negative (d.json ++ rest) =
      ((scale? d.written.digits d.written.exponent).map fun x =>
        Number.double (if negative then -x else x)).map (·, rest) := by
  rw [Decimal.json]
  by_cases hleading : -5 ≤ d.leading ∧ d.leading ≤ 15
  · rw [if_pos (by simpa using hleading)]
    by_cases hneg : d.exponent < 0
    · exact takeNumber?_plain_split hn hd hneg h
    · exact takeNumber?_plain_whole hn hd (not_lt.mp hneg) hleading.2 h
  · rw [if_neg (by simpa using hleading)]
    exact takeNumber?_scientific_decimal hn hd hleading h

end Doubles

/-! ## Numbers behind their signs -/

theorem exists_digit_of_takeNumber? {negative : Bool} {r : Number × List Char}
    (h : takeNumber? negative cs = some r) : ∃ c ds, cs = c :: ds ∧ c.isDigit = true := by
  cases cs with
  | nil => cases h
  | cons c ds =>
    by_cases hc : c.isDigit = true
    · exact ⟨c, ds, rfl, hc⟩
    · rw [takeNumber?, List.takeWhile_cons, if_neg hc] at h
      cases h

/-- A number behind its sign. -/
theorem number?_signPrefix {negative : Bool} {r : Number × List Char}
    (h : takeNumber? negative cs = some r) :
    (number? (signPrefix negative ++ cs)).map Taken.pair = some r := by
  cases negative with
  | true =>
    change (number? ('-' :: cs)).map Taken.pair = some r
    rw [number?]
    split
    · rename_i h'
      exact congrArg some (Option.some.inj (h'.symm.trans h))
    · rename_i h'
      cases h'.symm.trans h
  | false =>
    -- the text begins with a digit, and so with no sign
    obtain ⟨c, ds, rfl, hc⟩ := exists_digit_of_takeNumber? h
    change (number? (c :: ds)).map Taken.pair = some r
    rw [number?]
    · split
      · rename_i h'
        exact congrArg some (Option.some.inj (h'.symm.trans h))
      · rename_i h'
        cases h'.symm.trans h
    · rintro ds' heq
      obtain rfl := (List.cons.inj heq).1
      exact absurd hc (by decide)

theorem exists_takeNumber?_of_number? {r : Number × List Char}
    (h : (number? cs).map Taken.pair = some r) :
    ∃ negative ds, cs = signPrefix negative ++ ds ∧ takeNumber? negative ds = some r := by
  unfold number? at h
  split at h
  · rename_i ds
    split at h
    · rename_i hr
      exact ⟨true, ds, rfl, hr.trans (congrArg some (Option.some.inj h))⟩
    · cases h
  · split at h
    · rename_i hr
      exact ⟨false, cs, rfl, hr.trans (congrArg some (Option.some.inj h))⟩
    · cases h

/-- **A number is read in front of any text** that it does not go on with. -/
theorem number?_append {n : Number} (h : (number? cs).map Taken.pair = some (n, []))
    (hrest : Stops isNumberChar rest) :
    (number? (cs ++ rest)).map Taken.pair = some (n, rest) := by
  obtain ⟨negative, ds, rfl, hds⟩ := exists_takeNumber?_of_number? h
  rw [List.append_assoc]
  exact number?_signPrefix (takeNumber?_append hds hrest)

/-! ## Which numbers are doubles -/

section Marks

theorem eq_of_takeFraction?_nil {left : List Char} (h : takeFraction? cs = some ([], left)) :
    left = cs := by
  unfold takeFraction? at h
  split at h
  · split at h
    · cases h
    · rename_i hdigits
      exact absurd (Prod.mk.inj (Option.some.inj h)).1 hdigits
  · exact (Prod.mk.inj (Option.some.inj h)).2.symm

theorem eq_of_takeExponent?_none {left : List Char} (h : takeExponent? cs = some (none, left)) :
    left = cs := by
  cases cs with
  | nil => exact (Prod.mk.inj (Option.some.inj h)).2.symm
  | cons c ds =>
    rw [takeExponent?] at h
    split at h
    · dsimp only at h
      split at h
      · cases h
      · cases (Prod.mk.inj (Option.some.inj h)).1
    · exact (Prod.mk.inj (Option.some.inj h)).2.symm

/-- A number that is an integer is digits alone. -/
theorem isDigit_of_takeNumber?_int {negative : Bool} {i : Int64}
    (h : takeNumber? negative cs = some (.int i, [])) : ∀ c ∈ cs, c.isDigit = true := by
  unfold takeNumber? at h
  dsimp only at h
  split at h
  · split at h
    · cases h
    · rename_i fraction rest hfraction
      split at h
      · cases h
      · rename_i exponent left hexponent
        obtain ⟨m, hm, he⟩ := Option.map_eq_some_iff.mp h
        obtain ⟨rfl, rfl⟩ := Prod.mk.inj he
        split at hm
        · rename_i hnone
          obtain ⟨hempty, hnone⟩ := Bool.and_eq_true_iff.mp hnone
          obtain rfl := List.isEmpty_iff.mp hempty
          obtain rfl := Option.isNone_iff_eq_none.mp hnone
          have hleft := eq_of_takeExponent?_none hexponent
          have hrest := eq_of_takeFraction?_nil hfraction
          rw [← hleft] at hrest
          exact List.dropWhile_eq_nil_iff.mp hrest.symm
        · obtain ⟨x, -, hx⟩ := Option.map_eq_some_iff.mp hm
          cases hx
  · cases h

/-- **A number with a fraction or an exponent is no integer.** -/
theorem not_marked_of_number?_int {i : Int64}
    (h : (number? cs).map Taken.pair = some (.int i, [])) : cs.any isDoubleMark = false := by
  obtain ⟨negative, ds, rfl, hds⟩ := exists_takeNumber?_of_number? h
  rw [List.any_append, signPrefix_any_isDoubleMark, Bool.false_or, List.any_eq_false]
  exact fun c hc => not_isDoubleMark_of_isDigit (isDigit_of_takeNumber?_int hds c hc)

/-- What is printed for a double has a fraction or an exponent. -/
theorem marked_jsonText {x : Float} (hx : x.isFinite = true) :
    (jsonText x).any isDoubleMark = true := by
  have hmarked : ∀ d : Decimal, d.json.any isDoubleMark = true := by
    intro d
    rw [Decimal.json]
    split
    · rw [Decimal.plain]
      split <;> simp [isDoubleMark]
    · simp [Decimal.scientific, isDoubleMark]
  rw [jsonText, if_pos hx, List.any_append, hmarked, Bool.or_true]

end Marks

/-! ## Printed numbers -/

/-- **A 64-bit integer is read** as it is. -/
theorem number?_int64Chars (n : Int64) (h : Stops isNumberChar rest) :
    (number? (int64Chars n ++ rest)).map Taken.pair = some (.int n, rest) := by
  rw [int64Chars_eq, List.append_assoc]
  refine number?_signPrefix ?_
  have hvalue : (if decide (n.toInt < 0) = true then -(n.toInt.natAbs : Int) else n.toInt.natAbs) =
      n.toInt := by
    by_cases hneg : n.toInt < 0
    · rw [if_pos (decide_eq_true hneg)]
      omega
    · rw [if_neg (by simpa using hneg)]
      omega
  -- a zero behind a sign would be a double
  have hzero : (decide (n.toInt < 0) && (n.toInt.natAbs : Int) == 0) = false := by
    rw [Bool.and_eq_false_iff, decide_eq_false_iff_not, beq_eq_false_iff_ne]
    omega
  rw [takeNumber?_whole (isWhole_toDigits _) (fun c hc => isDigit_of_mem_toDigits hc) h, integer?,
    Nat.ofDigitChars_ten_toDigits]
  simp only [hvalue, hzero, toInt64?_toInt]
  rfl

/-- **A finite double is read** as itself if its digits and the power of ten are doubles. -/
theorem number?_jsonText {x : Float} (hx : x.isFinite = true)
    (hexact : (Decimal.shortest .even x.abs).written.Exact) (h : Stops isNumberChar rest) :
    (number? (jsonText x ++ rest)).map Taken.pair = some (.double x, rest) := by
  have hnormal := Decimal.normal_shortest .even x.abs
  have hsigned := Decimal.shortest_abs .even hx
  have hfinite : (Decimal.shortest .even x.abs).toFloat.isFinite = true := by
    have hboth := congrArg Float.isFinite hsigned
    rwa [apply_ite Float.isFinite, Double.isFinite_neg, ite_self, hx] at hboth
  have htoFloat := Decimal.toFloat_congr (Decimal.value_written (Decimal.shortest .even x.abs))
  have hscale := Decimal.scale?_of_exact hexact hnormal.written (htoFloat ▸ hfinite)
  have htext : jsonText x = signPrefix (decide (x.toBits >>> 63 = 1)) ++
      (Decimal.shortest .even x.abs).json := by
    rw [jsonText, if_pos hx, signChars, signPrefix]
    simp only [decide_eq_true_eq]
  rw [htext, List.append_assoc]
  refine number?_signPrefix ?_
  rw [takeNumber?_json hnormal (hexact.digits_lt.le.trans (by decide)) h, hscale, htoFloat]
  simp only [decide_eq_true_eq, Option.map_some, hsigned]

end Json

end DataBinding
