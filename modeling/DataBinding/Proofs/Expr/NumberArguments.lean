import DataBinding.Proofs.Expr.Numerals

/-!
# Numbers as arguments

A text that begins with a minus or a digit is read as a number among arguments, and holds no
separator then: it is an argument as a whole, or none.

* `readNumber_append_iff`: a number in front of a text that cannot go on with it.
* `Expr.of_parse_call`: a text that begins with a call.
* `Expr.parse_number_iff`: a call of one number.
* `Expr.parse_numeral_iff`: the texts that are numbers among arguments.
-/

namespace DataBinding

open Text

/-! ## Numerals in a text -/

namespace Numeral

variable {rest : List Char}

theorem spanExponent_scaleChars (n : Numeral) (hrest : Stops isWord rest)
    (hsign : Stops isSign rest) : spanExponent (n.scaleChars ++ rest) = (n.scaleChars, rest) := by
  rw [scaleChars]
  cases n.scale with
  | none => exact spanExponent_of_stops hrest
  | some s =>
    have hdigit := hrest.mono fun _ => isWord_of_isDigit
    obtain ⟨hsigned, hplain⟩ := spanExponent_marked s.isMark
    change spanExponent (s.mark :: (s.sign.toList ++ s.digits) ++ rest) =
      (s.mark :: (s.sign.toList ++ s.digits), rest)
    cases hs : s.sign with
    | some c =>
      change spanExponent (s.mark :: c :: (s.digits ++ rest)) = _
      rw [hsigned _ _ (s.isSign c hs), takeWhile_run s.isDigit hdigit,
        dropWhile_run s.isDigit hdigit]
      rfl
    | none =>
      change spanExponent (s.mark :: (s.digits ++ rest)) = _
      rw [hplain, takeWhile_run s.isDigit hdigit, dropWhile_run s.isDigit hdigit]
      · rfl
      · intro c hc
        have := (stops_isSign_of_isDigit s.isDigit).append hsign c hc
        simpa [isSign] using this

theorem isMantissaChar_of_mem (n : Numeral) :
    ∀ c ∈ n.whole ++ n.fractionChars, isMantissaChar c = true := by
  have hdigit {c : Char} (h : c.isDigit = true) : isMantissaChar c = true := by
    rw [isMantissaChar, h, Bool.true_or]
  intro c hc
  rcases List.mem_append.mp hc with hc | hc
  · exact hdigit (n.isDigit_whole c hc)
  · rw [fractionChars] at hc
    cases hfraction : n.fraction with
    | none => simp [hfraction] at hc
    | some ds =>
      rw [hfraction] at hc
      rcases List.mem_cons.mp hc with rfl | hc
      · rfl
      · exact hdigit (n.isDigit_fraction ds hfraction c hc)

theorem spanUnsigned_unsigned (n : Numeral) (hrest : Stops goesOn rest)
    (hsign : Stops isSign rest) : spanUnsigned (n.unsigned ++ rest) = (n.unsigned, rest) := by
  have hword := hrest.mono fun _ => goesOn_of_isWord
  have hstop : Stops isMantissaChar (n.scaleChars ++ rest) :=
    (n.stops_scaleChars (by decide) (by decide)).append
      (hrest.mono fun _ => goesOn_of_isMantissaChar)
  rw [unsigned, ← List.append_assoc, List.append_assoc, spanUnsigned,
    takeWhile_run n.isMantissaChar_of_mem hstop, dropWhile_run n.isMantissaChar_of_mem hstop,
    n.spanExponent_scaleChars hword hsign]

/-- **A numeral is taken as a whole** in front of a text that cannot go on with it. -/
theorem spanNumber_chars (n : Numeral) (hrest : Stops goesOn rest) (hsign : Stops isSign rest) :
    spanNumber (n.chars ++ rest) = (n.chars, rest) := by
  rw [chars]
  cases n.negative with
  | true =>
    change spanNumber ('-' :: (n.unsigned ++ rest)) = _
    rw [spanNumber, n.spanUnsigned_unsigned hrest hsign]
    rfl
  | false =>
    change spanNumber (n.unsigned ++ rest) = _
    rw [spanNumber, n.spanUnsigned_unsigned hrest hsign]
    · rfl
    · intro ds hds
      exact n.stops_isSign_unsigned.append hsign '-' (by rw [hds]; rfl) rfl

end Numeral

theorem readNumber_eq_ok_iff {cs rest : List Char} {v : Value} :
    readNumber cs = .ok (v, rest) ↔ (spanNumber cs).2 = rest ∧ Stops isWord rest ∧
      numberValue? (spanNumber cs).1 = some v := by
  have hstops (ds : List Char) : ¬ ds.head?.any isWord = true ↔ Stops isWord ds := by
    simp [Stops, Option.any_eq_true]
  rw [readNumber]
  simp only
  split
  · rename_i hword
    refine iff_of_false nofun ?_
    rintro ⟨rfl, hstop, -⟩
    exact (hstops _).mpr hstop hword
  · rename_i hword
    have hstop := (hstops _).mp hword
    split
    · rename_i w hw
      constructor
      · intro h
        obtain ⟨rfl, rfl⟩ := Prod.mk.inj (Except.ok.inj h)
        exact ⟨rfl, hstop, hw⟩
      · rintro ⟨rfl, -, hv⟩
        rw [Option.some.inj (hw.symm.trans hv)]
    · rename_i hnone
      exact iff_of_false nofun fun h => nomatch hnone.symm.trans h.2.2

/-- **A number is read** up to a text that cannot go on with it exactly if it is one by itself. -/
theorem readNumber_append_iff {cs rest : List Char} {v : Value} (hplus : cs.head? ≠ some '+')
    (hrest : Stops goesOn rest) (hsign : Stops isSign rest) :
    readNumber (cs ++ rest) = .ok (v, rest) ↔ numberValue? cs = some v := by
  rw [readNumber_eq_ok_iff]
  constructor
  · rintro ⟨hspan, -, hv⟩
    have happend := spanNumber_append (cs ++ rest)
    rw [hspan, List.append_cancel_right_eq] at happend
    rwa [happend] at hv
  · intro hv
    obtain ⟨n, -, rfl⟩ := Numeral.exists_of_numberValue? hv hplus
    rw [n.spanNumber_chars hrest hsign]
    exact ⟨rfl, hrest.mono fun _ => goesOn_of_isWord, hv⟩

/-! ## Numerals among arguments -/

namespace Arg

variable {cs rest : List Char}

/-- What begins with a minus or a digit is read as a number. -/
theorem of_read_number {a : Arg} {c : Char} {ds : List Char} (h : Gives (Arg.read cs) a rest)
    (hcs : skipBlank cs = c :: ds) (hc : c = '-' ∨ c.isDigit = true) :
    ∃ v, a = .literal v ∧ readNumber (c :: ds) = .ok (v, rest) := by
  cases read_iff.mp h with
  | quoted hcs' =>
    obtain ⟨rfl, -⟩ := List.cons.inj (hcs'.symm.trans hcs)
    exact absurd hc (by decide)
  | number hcs' _ hnumber =>
    obtain ⟨rfl, rfl⟩ := List.cons.inj (hcs'.symm.trans hcs)
    exact ⟨_, rfl, hnumber⟩
  | call hcs' hstart | constant hcs' hstart | binding hcs' hstart =>
    obtain ⟨rfl, -⟩ := List.cons.inj (hcs'.symm.trans hcs)
    exact absurd hc (not_number hstart)

end Arg

/-- What begins with a name and a parenthesis is that call, if it stands before a closing brace. -/
theorem Interpolation.of_read_call {i : Interpolation} {f : String} {es rest ds : List Char}
    (hf : CallName f) (h : Gives (Interpolation.read (f.toList ++ '(' :: es)) i rest)
    (hclose : skipBlank rest = '}' :: ds) :
    ∃ args, i = .call f args ∧ Gives (Arg.readArgs es) args rest := by
  have hskip : skipBlank (f.toList ++ '(' :: es) = f.toList ++ '(' :: es :=
    (opens_callName hf _).skipBlank_eq
  rcases Interpolation.of_read h with ⟨name, args, es', rfl, hname, hes, hargs⟩ | ⟨b, rfl, hb⟩
  · rw [hskip] at hes
    have hword := congrArg (List.takeWhile isWord) hes
    have hbehind := congrArg (List.dropWhile isWord) hes
    rw [takeWhile_run hf.1 (stops_parenthesis _), takeWhile_run hname.1 (stops_parenthesis _),
      String.toList_inj] at hword
    rw [dropWhile_run hf.1 (stops_parenthesis _),
      dropWhile_run hname.1 (stops_parenthesis _)] at hbehind
    obtain rfl := (List.cons.inj hbehind).2
    exact ⟨args, by rw [hword], hargs⟩
  · -- a reference ends at the parenthesis, and no brace stands there
    have hchars : ∀ c ∈ f.toList, isBindingChar c = true :=
      fun c hc => isBindingChar_of_isWord (hf.1 c hc)
    have hrest := Binding.rest_eq hb
    rw [hskip, dropWhile_run hchars (stops_cons (by decide) _)] at hrest
    rw [hrest, skipBlank_of_stops (stops_cons (by decide) _)] at hclose
    cases hclose

/-- **A text that begins with a call** is that call alone if nothing stands behind it. -/
theorem Expr.of_parse_call {f t : String} {e : Expr} (hf : CallName f)
    (h : Expr.parse ("@\x7b" ++ f ++ "(" ++ t ++ ")\x7d") = .ok e) :
    ∃ args rest ds, Gives (Arg.readArgs (t.toList ++ [')', '}'])) args rest ∧
      skipBlank rest = '}' :: ds ∧ (ds = [] → e = .single (.call f args)) := by
  have htext : ("@\x7b" ++ f ++ "(" ++ t ++ ")\x7d").toList =
      '@' :: '{' :: (f.toList ++ '(' :: (t.toList ++ [')', '}'])) := by
    simp [String.toList_append]
  rw [Expr.parse, mapError_eq_ok_iff, map_eq_ok_iff, htext] at h
  obtain ⟨as, has, rfl⟩ := h
  rw [readAtoms] at has
  split at has
  · cases has
  · rename_i x hx
    split at has
    · rename_i ds hclose
      obtain ⟨as, hmore, rfl⟩ := map_eq_ok_iff.mp has
      obtain ⟨args, hi, hargs⟩ := Interpolation.of_read_call hf ⟨x, hx, rfl, rfl⟩ hclose
      refine ⟨args, x.rest, ds, hargs, hclose, ?_⟩
      rintro rfl
      rw [readAtoms] at hmore
      rw [← Except.ok.inj hmore, hi]
      rfl
    · cases has
    · cases has

theorem eq_of_append_close {cs ds rest : List Char} (h : cs ++ ')' :: rest = ds ++ [')', '}'])
    (hclose : ')' ∉ ds) : rest = ['}'] := by
  rcases List.append_eq_append_iff.mp h with ⟨es, rfl, hes⟩ | ⟨es, rfl, hes⟩
  · cases es with
    | nil => exact (List.cons.inj hes).2
    | cons c es =>
      obtain ⟨rfl, -⟩ := List.cons.inj hes
      exact absurd (List.mem_append_right _ List.mem_cons_self) hclose
  · rcases es with - | ⟨c, - | ⟨d, es⟩⟩
    · exact (List.cons.inj hes).2.symm
    · cases (List.cons.inj (List.cons.inj hes).2).1
    · simp at hes

/-- A text that holds no comma, no closing parenthesis and no blank. -/
def Unseparated (cs : List Char) : Prop :=
  ∀ c ∈ cs, c ≠ ',' ∧ c ≠ ')' ∧ ¬ isBlank c = true

instance (cs : List Char) : Decidable (Unseparated cs) :=
  decidable_of_iff (cs.all (fun c => decide (c ≠ ',' ∧ c ≠ ')' ∧ ¬ isBlank c = true)) = true) (by
    simp only [List.all_eq_true, decide_eq_true_eq]
    rfl)

theorem Unseparated.skipBlank_eq {cs used rest : List Char} (h : Unseparated cs)
    (happend : used ++ rest = cs ++ [')', '}']) : skipBlank rest = rest := by
  refine skipBlank_of_stops fun c hc => ?_
  have hmem : c ∈ cs ++ [')', '}'] :=
    happend ▸ List.mem_append_right _ (List.mem_of_mem_head? hc)
  rcases List.mem_append.mp hmem with hmem | hmem
  · exact (h c hmem).2.2
  · fin_cases hmem <;> decide

theorem Unseparated.ne_comma {cs used rest : List Char} (h : Unseparated cs)
    (happend : used ++ rest = cs ++ [')', '}']) (ds : List Char) : rest ≠ ',' :: ds := by
  rintro rfl
  have hmem : ',' ∈ cs ++ [')', '}'] :=
    happend ▸ List.mem_append_right _ List.mem_cons_self
  rcases List.mem_append.mp hmem with hmem | hmem
  · exact (h _ hmem).1 rfl
  · exact absurd hmem (by decide)

/-- The arguments that are read where a number begins are that number, up to the parenthesis. -/
theorem Arg.of_readArgs_number {c : Char} {ds rest : List Char} {args : List Arg}
    (hc : c = '-' ∨ c.isDigit = true) (hds : Unseparated (c :: ds))
    (h : Gives (Arg.readArgs (c :: ds ++ [')', '}'])) args rest) :
    rest = ['}'] ∧ ∃ v, numberValue? (c :: ds) = some v ∧ args = [.literal v] := by
  have hcs : skipBlank (c :: ds ++ [')', '}']) = c :: (ds ++ [')', '}']) :=
    hds.skipBlank_eq (List.nil_append _)
  obtain ⟨-, hclose⟩ | hmore := Arg.of_readArgs h
  · rw [hcs] at hclose
    exact absurd (List.cons.inj hclose).1 (hds c List.mem_cons_self).2.1
  obtain ⟨a, behind, ha, hbehind⟩ := Arg.of_readMore hmore
  obtain ⟨v, rfl, hv⟩ := Arg.of_read_number ha hcs hc
  obtain ⟨hspan, -, hvalue⟩ := readNumber_eq_ok_iff.mp hv
  have happend : (spanNumber (c :: (ds ++ [')', '}']))).1 ++ behind = c :: ds ++ [')', '}'] :=
    hspan ▸ spanNumber_append _
  rw [hds.skipBlank_eq happend] at hbehind
  rcases hbehind with ⟨rfl, rfl⟩ | ⟨es, as, -, hes, -⟩
  · obtain rfl := eq_of_append_close happend fun hmem => (hds _ hmem).2.1 rfl
    -- nothing but the parenthesis and the brace is behind the number, so it is the whole text
    have hused := List.append_cancel_right happend
    exact ⟨rfl, v, hused ▸ hvalue, rfl⟩
  · exact absurd hes (hds.ne_comma happend es)

/-- A number among arguments does not begin with a plus, though the readers of numbers take one. -/
theorem head?_ne_plus {cs : List Char}
    (h : ∃ c, cs.head? = some c ∧ (c = '-' ∨ c.isDigit = true)) : cs.head? ≠ some '+' := by
  obtain ⟨c, hc, hnumber⟩ := h
  rw [hc]
  rintro ⟨⟩
  simp at hnumber

/-- **A call of one number** is read exactly from the texts that spell numbers. -/
theorem Expr.parse_number_iff {f t : String} {e : Expr} (hf : CallName f)
    (hstart : ∃ c, t.toList.head? = some c ∧ (c = '-' ∨ c.isDigit = true))
    (ht : Unseparated t.toList) :
    Expr.parse ("@\x7b" ++ f ++ "(" ++ t ++ ")\x7d") = .ok e ↔
      ∃ v, numberValue? t.toList = some v ∧ e = .single (.call f [.literal v]) := by
  have hplus := head?_ne_plus hstart
  obtain ⟨c, hc, hnumber⟩ := hstart
  obtain ⟨ds, hds⟩ := List.head?_eq_some_iff.mp hc
  constructor
  · intro h
    obtain ⟨args, rest, es, hargs, hclose, he⟩ := Expr.of_parse_call hf h
    rw [hds] at hargs ht
    obtain ⟨rfl, v, hv, rfl⟩ := Arg.of_readArgs_number hnumber ht hargs
    exact ⟨v, hds ▸ hv, he (List.cons.inj hclose).2.symm⟩
  · rintro ⟨v, hv, rfl⟩
    have hread : readNumber (t.toList ++ [')', '}']) = .ok (v, [')', '}']) :=
      (readNumber_append_iff hplus (by decide) (by decide)).mpr hv
    have hskip := ht.skipBlank_eq (List.nil_append _)
    rw [hds] at hread hskip
    refine Expr.parse_call_eq hf ?_ (skipBlank_of_stops (by decide))
    rw [hds]
    exact Arg.read_number hskip hnumber hread

/-- **A text is a number among arguments** exactly if it is a numeral whose value fits: a regular
one, or one with a gap in front of the point or between the point and the exponent. -/
theorem Expr.parse_numeral_iff {f t : String} {e : Expr} (hf : CallName f)
    (hstart : ∃ c, t.toList.head? = some c ∧ (c = '-' ∨ c.isDigit = true))
    (ht : Unseparated t.toList) :
    Expr.parse ("@\x7b" ++ f ++ "(" ++ t ++ ")\x7d") = .ok e ↔
      ∃ (n : Numeral) (v : Value), (n.Regular ∨ n.Gapped) ∧ n.chars = t.toList ∧
        n.value? = some v ∧ e = .single (.call f [.literal v]) := by
  have hplus := head?_ne_plus hstart
  rw [Expr.parse_number_iff hf hstart ht]
  constructor
  · rintro ⟨v, hv, rfl⟩
    obtain ⟨n, hn, hchars, hvalue⟩ := (numberValue?_eq_some_iff hplus).mp hv
    exact ⟨n, v, hn, hchars, hvalue, rfl⟩
  · rintro ⟨n, v, hn, hchars, hvalue, rfl⟩
    exact ⟨v, (numberValue?_eq_some_iff hplus).mpr ⟨n, hn, hchars, hvalue⟩, rfl⟩

/-- With a fraction and an exponent, both with a sign. -/
theorem Expr.parse_numeral_iff_of_scale :
    CallName "f" ∧ Unseparated "-12.5E-1".toList ∧
    Expr.parse ("@\x7b" ++ "f" ++ "(" ++ "-12.5E-1" ++ ")\x7d") =
      .ok (.single (.call "f" [.literal (.double (-1.25))])) := by
  let n : Numeral := ⟨true, ['1', '2'], some ['5'],
    some ⟨'E', some '-', ['1'], .inr rfl, by simp, by simp, by simp⟩, by simp, by simp⟩
  have hn : n.Regular := ⟨by simp [n], by simp [n]⟩
  have hread : numberValue? ['-', '1', '2', '.', '5', 'E', '-', '1'] =
      some (.double (-1.25)) := rfl
  have hv : n.value? = some (.double (-1.25)) := (n.numberValue?_chars (.inl hn)).symm.trans hread
  have hname : CallName "f" := by decide
  have ht : Unseparated "-12.5E-1".toList := by decide
  exact ⟨hname, ht, (Expr.parse_numeral_iff hname ⟨'-', rfl, .inl rfl⟩ ht).mpr
    ⟨n, _, .inl hn, rfl, hv, rfl⟩⟩

/-- Digits that are missing in front of the point, or between the point and the exponent, do not
keep a text from being a number. -/
theorem Expr.parse_numeral_of_gap :
    Expr.parse "@\x7bf(-.5)\x7d" = .ok (.single (.call "f" [.literal (.double (-0.5))])) ∧
    Expr.parse "@\x7bf(1.e5)\x7d" = .ok (.single (.call "f" [.literal (.double 1e5)])) ∧
    ¬ ∃ n : Numeral, n.Regular ∧ (n.chars = "-.5".toList ∨ n.chars = "1.e5".toList) := by
  have hname : CallName "f" := by decide
  have hminus : numberValue? ['-', '.', '5'] = some (.double (-0.5)) := rfl
  have hscale : numberValue? ['1', '.', 'e', '5'] = some (.double 1e5) := rfl
  let n : Numeral := ⟨true, [], some ['5'], none, by simp, by simp⟩
  let m : Numeral := ⟨false, ['1'], some [],
    some ⟨'e', none, ['5'], .inl rfl, by simp, by simp, by simp⟩, by simp, by simp⟩
  refine ⟨?_, ?_, ?_⟩
  · exact (Expr.parse_number_iff (t := "-.5") hname ⟨'-', rfl, .inl rfl⟩ (by decide)).mpr
      ⟨_, hminus, rfl⟩
  · exact (Expr.parse_number_iff (t := "1.e5") hname ⟨'1', rfl, .inr rfl⟩ (by decide)).mpr
      ⟨_, hscale, rfl⟩
  · rintro ⟨k, hk, hchars | hchars⟩
    · exact Numeral.Gapped.not_regular (n := n) (.inl ⟨rfl, _, _, rfl⟩) hchars hk
    · exact Numeral.Gapped.not_regular (n := m) (.inr ⟨nofun, rfl, nofun⟩) hchars hk

end DataBinding
