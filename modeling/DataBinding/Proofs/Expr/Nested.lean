import DataBinding.Proofs.Expr.RoundTrip
import DataBinding.Proofs.Path.Spelling

/-!
# Interpolations as arguments

What stands between braces may also stand among the arguments of a call. A reader looks at no more
than the first character behind what it takes, so it takes the same text in both places; but a word
of digits and letters is a call between braces, and a number among arguments.

* `Arg.read_alike`, `Arg.readArgs_alike`: what stands behind the text that a reader takes does not
  matter.
* `Expr.parse_eq_single_iff`: the texts of single interpolations.
* `Expr.parse_argument_iff`: which of them mean the same as arguments.
-/

namespace DataBinding

open Text

variable {cs rest rest' : List Char}

/-! ## Texts that begin alike -/

theorem Stops.alike {p : Char → Bool} (h : Stops p rest) (hhead : rest'.head? = rest.head?) :
    Stops p rest' :=
  fun c hc => h c (hhead ▸ hc)

theorem Stops.append {p : Char → Bool} (hcs : Stops p cs) (hrest : Stops p rest) :
    Stops p (cs ++ rest) := by
  cases cs with
  | nil => exact hrest
  | cons c cs => exact stops_cons (hcs c rfl) _

theorem stops_dropWhile (p : Char → Bool) (cs : List Char) : Stops p (cs.dropWhile p) := by
  intro c hc
  have hnot := List.head?_dropWhile_not p cs
  rw [hc] at hnot
  simpa using hnot

theorem head?_append_alike (used : List Char) (h : rest'.head? = rest.head?) :
    (used ++ rest').head? = (used ++ rest).head? := by
  rw [List.head?_append, List.head?_append, h]

theorem ne_cons_of_alike {c : Char} (h : ∀ ds, rest ≠ c :: ds)
    (hhead : rest'.head? = rest.head?) (ds : List Char) : rest' ≠ c :: ds := by
  rintro rfl
  exact head?_ne_some h hhead.symm

theorem takeWhile_alike {p : Char → Bool} (h : rest'.head? = (cs.dropWhile p).head?) :
    (cs.takeWhile p ++ rest').takeWhile p = cs.takeWhile p :=
  takeWhile_run mem_takeWhile ((stops_dropWhile p cs).alike h)

theorem dropWhile_alike {p : Char → Bool} (h : rest'.head? = (cs.dropWhile p).head?) :
    (cs.takeWhile p ++ rest').dropWhile p = rest' :=
  dropWhile_run mem_takeWhile ((stops_dropWhile p cs).alike h)

theorem skipBlank_alike {used : List Char} (hcs : skipBlank cs = used ++ rest)
    {rest' : List Char} (h : rest'.head? = rest.head?) :
    skipBlank (cs.takeWhile isBlank ++ used ++ rest') = used ++ rest' := by
  rw [List.append_assoc]
  refine dropWhile_alike ?_
  rw [head?_append_alike used h, ← hcs]
  rfl

theorem skipBlank_used {used : List Char} (hcs : skipBlank cs = used ++ rest) (hne : used ≠ [])
    (rest' : List Char) : skipBlank (cs.takeWhile isBlank ++ used ++ rest') = used ++ rest' := by
  obtain ⟨c, used, rfl⟩ := List.exists_cons_of_ne_nil hne
  have hcs' : skipBlank cs = [] ++ (c :: used ++ rest) := hcs
  have hhead : (c :: used ++ rest').head? = (c :: used ++ rest).head? := rfl
  have hskip := skipBlank_alike hcs' hhead
  rwa [List.append_nil, ← List.append_assoc] at hskip

theorem takeWhile_blank_append {used : List Char} (hcs : skipBlank cs = used ++ rest) :
    cs = cs.takeWhile isBlank ++ used ++ rest := by
  rw [List.append_assoc, ← hcs]
  exact List.takeWhile_append_dropWhile.symm

/-- Behind blanks stands the first character that is none. -/
theorem skipBlank_behind {c : Char} (hc : ¬ isBlank c = true) :
    skipBlank (cs.takeWhile isBlank ++ [c] ++ rest') = c :: rest' := by
  rw [List.append_assoc]
  exact dropWhile_run mem_takeWhile (stops_cons hc _)

theorem head?_behind {blanks : List Char} {c : Char} (h : cs = blanks ++ [c] ++ rest) :
    (blanks ++ [c] ++ rest').head? = cs.head? := by
  rw [h, List.append_assoc, List.append_assoc]
  exact head?_append_alike blanks rfl

/-- No argument goes on with a blank. -/
theorem stops_blanks {blanks : List Char} (h : ∀ c ∈ blanks, isBlank c = true) :
    Stops goesOn blanks := by
  intro c hc hgoes
  have hblank := h c (List.mem_of_mem_head? hc)
  simp only [goesOn, isBindingChar, Bool.or_eq_true, beq_iff_eq] at hgoes
  rcases hgoes with (((hword | rfl) | rfl) | rfl) | rfl
  · exact not_isBlank_of_isWord hword hblank
  all_goals exact absurd hblank (by decide)

/-! ## Strings, numbers and constants -/

/-- **A string is read alike** whatever stands behind its closing apostrophe. -/
theorem readQuoted_alike {s : List Char} (h : readQuoted cs = some (s, rest)) :
    ∃ used, cs = used ++ rest ∧
      ∀ rest', rest'.head? = rest.head? → readQuoted (used ++ rest') = some (s, rest') := by
  fun_induction readQuoted cs generalizing s rest with
  | case1 => cases h
  | case2 cs =>
    obtain ⟨rfl, rfl⟩ := Prod.mk.inj (Option.some.inj h)
    refine ⟨['\''], rfl, fun rest' _ => ?_⟩
    rw [List.singleton_append, readQuoted]
  | case3 cs ih =>
    obtain ⟨⟨s, _⟩, hq, h⟩ := Option.map_eq_some_iff.mp h
    obtain ⟨rfl, rfl⟩ := Prod.mk.inj h
    obtain ⟨used, rfl, hused⟩ := ih hq
    refine ⟨'\\' :: '\'' :: used, rfl, fun rest' hhead => ?_⟩
    rw [List.cons_append, List.cons_append, readQuoted, hused rest' hhead]
    rfl
  | case4 cs ih =>
    obtain ⟨⟨s, _⟩, hq, h⟩ := Option.map_eq_some_iff.mp h
    obtain ⟨rfl, rfl⟩ := Prod.mk.inj h
    obtain ⟨used, rfl, hused⟩ := ih hq
    refine ⟨'\\' :: '\\' :: used, rfl, fun rest' hhead => ?_⟩
    rw [List.cons_append, List.cons_append, readQuoted, hused rest' hhead]
    rfl
  | case5 c cs hquote hescaped hslash ih =>
    obtain ⟨⟨s, _⟩, hq, h⟩ := Option.map_eq_some_iff.mp h
    obtain ⟨rfl, rfl⟩ := Prod.mk.inj h
    obtain ⟨used, rfl, hused⟩ := ih hq
    refine ⟨c :: used, rfl, fun rest' hhead => ?_⟩
    have hnext := head?_append_alike used hhead
    rw [List.cons_append, readQuoted, hused rest' hhead]
    · rfl
    · exact hquote
    · exact fun ds hc => ne_cons_of_alike (fun es => hescaped es hc) hnext ds
    · exact fun ds hc => ne_cons_of_alike (fun es => hslash es hc) hnext ds

/-- The exponent behind `e`: its sign, if there is one, and its digits. -/
theorem spanExponent_marked {c : Char} (hc : c = 'e' ∨ c = 'E') :
    (∀ s ds, s = '+' ∨ s = '-' → spanExponent (c :: s :: ds) =
      (c :: s :: ds.takeWhile Char.isDigit, ds.dropWhile Char.isDigit)) ∧
    ∀ ds, (∀ s, ds.head? = some s → ¬ (s = '+' ∨ s = '-')) → spanExponent (c :: ds) =
      (c :: ds.takeWhile Char.isDigit, ds.dropWhile Char.isDigit) := by
  refine ⟨fun s ds hs => ?_, fun ds hds => ?_⟩
  · simp only [spanExponent, if_pos hc, if_pos hs]
  · cases ds with
    | nil => simp only [spanExponent, if_pos hc, List.takeWhile_nil, List.dropWhile_nil]
    | cons s ds => simp only [spanExponent, if_pos hc, if_neg (hds s rfl)]

theorem spanExponent_alike (h : rest'.head? = (spanExponent cs).2.head?) :
    spanExponent ((spanExponent cs).1 ++ rest') = ((spanExponent cs).1, rest') := by
  cases cs with
  | nil =>
    obtain rfl := List.head?_eq_none_iff.mp h
    rfl
  | cons c cs =>
    by_cases hc : c = 'e' ∨ c = 'E'
    · obtain ⟨hsigned, hplain⟩ := spanExponent_marked hc
      by_cases hsign : ∃ s ds, cs = s :: ds ∧ (s = '+' ∨ s = '-')
      · obtain ⟨s, ds, rfl, hs⟩ := hsign
        rw [hsigned s ds hs] at h ⊢
        simp only [List.cons_append]
        rw [hsigned s _ hs, takeWhile_alike h, dropWhile_alike h]
      · have hcs : ∀ s, cs.head? = some s → ¬ (s = '+' ∨ s = '-') := by
          intro s hhead hs
          obtain ⟨ds, rfl⟩ := List.head?_eq_some_iff.mp hhead
          exact hsign ⟨s, ds, rfl, hs⟩
        rw [hplain cs hcs] at h ⊢
        simp only [List.cons_append]
        rw [hplain _ ?_, takeWhile_alike h, dropWhile_alike h]
        rwa [head?_append_alike _ h, List.takeWhile_append_dropWhile]
    · have hnone (ds : List Char) : spanExponent (c :: ds) = ([], c :: ds) := by
        simp only [spanExponent, if_neg hc]
      rw [hnone] at h ⊢
      obtain ⟨ds, rfl⟩ := List.head?_eq_some_iff.mp h
      exact hnone ds

theorem spanUnsigned_alike (h : rest'.head? = (spanUnsigned cs).2.head?) :
    spanUnsigned ((spanUnsigned cs).1 ++ rest') = ((spanUnsigned cs).1, rest') := by
  simp only [spanUnsigned] at h ⊢
  have hexponent := head?_append_alike (spanExponent (cs.dropWhile isMantissaChar)).1 h
  rw [spanExponent_append] at hexponent
  rw [List.append_assoc, takeWhile_alike hexponent, dropWhile_alike hexponent, spanExponent_alike h]

theorem spanNumber_alike (h : rest'.head? = (spanNumber cs).2.head?) :
    spanNumber ((spanNumber cs).1 ++ rest') = ((spanNumber cs).1, rest') := by
  by_cases hminus : ∃ ds, cs = '-' :: ds
  · obtain ⟨ds, rfl⟩ := hminus
    simp only [spanNumber, List.cons_append] at h ⊢
    rw [spanUnsigned_alike h]
  · have hcs : spanNumber cs = spanUnsigned cs := by
      rw [spanNumber]
      exact fun ds hds => hminus ⟨ds, hds⟩
    have hhead := head?_append_alike (spanNumber cs).1 h
    rw [spanNumber_append] at hhead
    rw [hcs] at h hhead ⊢
    rw [spanNumber]
    · exact spanUnsigned_alike h
    · exact ne_cons_of_alike (fun es hes => hminus ⟨es, hes⟩) hhead

/-- **A number is read alike** in front of texts that begin alike. -/
theorem readNumber_alike {v : Value} (h : readNumber cs = .ok (v, rest)) :
    ∃ used, cs = used ++ rest ∧
      ∀ rest', rest'.head? = rest.head? → readNumber (used ++ rest') = .ok (v, rest') := by
  have happend := spanNumber_append cs
  rw [readNumber] at h
  simp only at h
  split at h
  · cases h
  · rename_i hword
    split at h
    · rename_i hv
      obtain ⟨rfl, rfl⟩ := Prod.mk.inj (Except.ok.inj h)
      refine ⟨(spanNumber cs).1, happend.symm, fun rest' hhead => ?_⟩
      rw [readNumber, spanNumber_alike hhead]
      simp only [hhead, if_neg hword, hv]
    · cases h

theorem constant?_alike {word : List Char} (h : rest'.head? = rest.head?) :
    constant? word rest' = constant? word rest := by
  cases rest with
  | nil => rw [List.head?_eq_none_iff.mp h]
  | cons c rest =>
    obtain ⟨ds, rfl⟩ := List.head?_eq_some_iff.mp h
    unfold constant?
    split <;> simp_all

/-! ## References -/

theorem Binding.read_takeWhile {b : Binding} (h : Binding.read cs = .ok (b, rest))
    (hrest' : Stops isBindingChar rest') :
    Binding.read (cs.takeWhile isBindingChar ++ rest') = .ok (b, rest') := by
  rw [Binding.read] at h
  rw [Binding.read, takeWhile_run mem_takeWhile hrest', dropWhile_run mem_takeWhile hrest']
  split at h
  · obtain ⟨rfl, -⟩ := Prod.mk.inj (Except.ok.inj h)
    rfl
  · cases h

theorem Binding.rest_eq {b : Binding} (h : Binding.read cs = .ok (b, rest)) :
    rest = cs.dropWhile isBindingChar := by
  rw [Binding.read] at h
  split at h
  · exact (Prod.mk.inj (Except.ok.inj h)).2.symm
  · cases h

theorem Binding.constant?_of_continues {b : Binding} (h : Path.Continues b.path cs)
    (hkeyword : ¬ b.IsKeyword) (rest : List Char) :
    constant? b.context.toList (cs ++ rest) = none := by
  have hnone := Binding.constant?_eq_none hkeyword rest
  generalize b.path = path at h hnone
  cases h with
  | nil => exact hnone
  | cons hs hp =>
    cases hs with
    | key name => rfl
    | index hne hdigits hvalue => rfl

/-! ## Arguments -/

namespace Arg

section Word

variable {c : Char} {ds es : List Char}

/-- The word that a text begins with, in front of another text that does not go on with it. -/
theorem exists_word (hc : isWordStart c = true)
    (hhead : es.head? = ((c :: ds).dropWhile isWord).head?) :
    ∃ ts, (c :: ds).takeWhile isWord ++ es = c :: ts ∧
      (c :: ts).takeWhile isWord = (c :: ds).takeWhile isWord ∧
      (c :: ts).dropWhile isWord = es := by
  have hcons : (c :: ds).takeWhile isWord ++ es = c :: (ds.takeWhile isWord ++ es) := by
    rw [List.takeWhile_cons_of_pos (isWord_of_isWordStart hc)]
    rfl
  exact ⟨_, hcons, hcons ▸ takeWhile_alike hhead, hcons ▸ dropWhile_alike hhead⟩

theorem read_constant_alike {v : Value} (hc : isWordStart c = true)
    (hparen : ∀ es, (c :: ds).dropWhile isWord ≠ '(' :: es)
    (hv : constant? ((c :: ds).takeWhile isWord) ((c :: ds).dropWhile isWord) = some v)
    (hcs : skipBlank cs = (c :: ds).takeWhile isWord ++ rest)
    (hhead : rest.head? = ((c :: ds).dropWhile isWord).head?) :
    Gives (Arg.read cs) (.literal v) rest := by
  obtain ⟨ts, hcons, htake, hdrop⟩ := exists_word hc hhead
  rw [hcons] at hcs
  have hread := read_constant (v := v) hcs hc
  rw [htake, hdrop] at hread
  refine hread (ne_cons_of_alike hparen hhead) ?_
  rwa [constant?_alike hhead]

theorem read_binding_alike {b : Binding} (hc : isWordStart c = true)
    (hparen : ∀ es, (c :: ds).dropWhile isWord ≠ '(' :: es)
    (hv : constant? ((c :: ds).takeWhile isWord) ((c :: ds).dropWhile isWord) = none)
    (hb : Binding.read (c :: ds) = .ok (b, rest))
    (hcs : skipBlank cs = (c :: ds).takeWhile isBindingChar ++ rest')
    (hhead : rest'.head? = rest.head?) : Gives (Arg.read cs) (.binding b) rest' := by
  -- the reference is its first word and what else of it there is
  have hchars : (c :: ds).takeWhile isBindingChar = (c :: ds).takeWhile isWord ++
      ((c :: ds).dropWhile isWord).takeWhile isBindingChar := by
    rw [← dropWhile_takeWhile fun _ => isBindingChar_of_isWord,
      ← takeWhile_takeWhile fun _ => isBindingChar_of_isWord, List.takeWhile_append_dropWhile]
  have hrest := Binding.rest_eq hb
  have hbehind : (((c :: ds).dropWhile isWord).takeWhile isBindingChar ++ rest').head? =
      ((c :: ds).dropWhile isWord).head? := by
    rw [head?_append_alike _ hhead, hrest, ← dropWhile_dropWhile fun _ => isBindingChar_of_isWord,
      List.takeWhile_append_dropWhile]
  have hstop : Stops isBindingChar rest := hrest.symm ▸ stops_dropWhile isBindingChar (c :: ds)
  have hread := Binding.read_takeWhile hb (hstop.alike hhead)
  obtain ⟨ts, hcons, htake, hdrop⟩ := exists_word hc hbehind
  rw [hchars, List.append_assoc, hcons] at hcs hread
  refine read_binding hcs hc ?_ ?_ hread
  · rw [hdrop]
    exact ne_cons_of_alike hparen hbehind
  · rw [htake, hdrop]
    rwa [constant?_alike hbehind]

end Word

mutual

/-- **An argument is read alike** in front of texts that begin alike. -/
theorem read_alike {cs rest : List Char} {a : Arg} (h : Gives (Arg.read cs) a rest) :
    ∃ used, cs = used ++ rest ∧ ∀ rest', rest'.head? = rest.head? →
      Gives (Arg.read (used ++ rest')) a rest' := by
  cases read_iff.mp h with
  | quoted hcs hquoted =>
    obtain ⟨used, rfl, hused⟩ := readQuoted_alike hquoted
    rw [← List.cons_append] at hcs
    refine ⟨_, takeWhile_blank_append hcs, fun rest' hhead => ?_⟩
    exact read_quoted (skipBlank_alike hcs hhead) (hused rest' hhead)
  | number hcs hfirst hnumber =>
    obtain ⟨used, hcons, hused⟩ := readNumber_alike hnumber
    rw [hcons] at hcs
    refine ⟨_, takeWhile_blank_append hcs, fun rest' hhead => ?_⟩
    have hhead' := head?_append_alike used hhead
    rw [← hcons] at hhead'
    obtain ⟨es, hes⟩ := List.head?_eq_some_iff.mp hhead'
    have hskip := skipBlank_alike hcs hhead
    rw [hes] at hskip
    exact read_number hskip hfirst (hes ▸ hused rest' hhead)
  | @call c ds es rest args hcs hstart hbehind hname hargs =>
    have hword := isWord_of_isWordStart hstart
    have hlt := length_lt_of_call hcs hword hbehind
    obtain ⟨used, hes, hused⟩ := readArgs_alike hargs
    have hsplit : skipBlank cs = (c :: ds).takeWhile isWord ++ '(' :: used ++ rest := by
      rw [List.append_assoc, List.cons_append, ← hes, ← hbehind, hcs,
        List.takeWhile_append_dropWhile]
    refine ⟨_, takeWhile_blank_append hsplit, fun rest' hhead => ?_⟩
    have hskip := skipBlank_alike hsplit hhead
    rw [List.append_assoc ((c :: ds).takeWhile isWord), List.cons_append] at hskip
    have hdigit : Stops Char.isDigit ((c :: ds).takeWhile isWord) := by
      rw [List.takeWhile_cons_of_pos hword]
      exact stops_cons (not_isDigit_of_isWordStart hstart) _
    refine read_name (callName_takeWhile hname) ?_ ?_ (hused rest')
    · rwa [String.toList_ofList]
    · rwa [String.toList_ofList]
  | @constant c ds v hcs hstart hbehind hconstant =>
    have hsplit : skipBlank cs = (c :: ds).takeWhile isWord ++ (c :: ds).dropWhile isWord := by
      rw [hcs, List.takeWhile_append_dropWhile]
    refine ⟨_, takeWhile_blank_append hsplit, fun rest' hhead => ?_⟩
    exact read_constant_alike hstart hbehind hconstant (skipBlank_alike hsplit hhead) hhead
  | @binding c ds rest b hcs hstart hbehind hconstant hbinding =>
    have hsplit : skipBlank cs = (c :: ds).takeWhile isBindingChar ++ rest := by
      rw [hcs, Binding.rest_eq hbinding, List.takeWhile_append_dropWhile]
    refine ⟨_, takeWhile_blank_append hsplit, fun rest' hhead => ?_⟩
    exact read_binding_alike hstart hbehind hconstant hbinding (skipBlank_alike hsplit hhead) hhead
termination_by (cs.length, 0)

/-- Behind the closing parenthesis any text may stand. -/
theorem readArgs_alike {cs rest : List Char} {args : List Arg}
    (h : Gives (Arg.readArgs cs) args rest) :
    ∃ used, cs = used ++ rest ∧ ∀ rest', Gives (Arg.readArgs (used ++ rest')) args rest' := by
  obtain ⟨rfl, hclose⟩ | hmore := of_readArgs h
  · have hsplit : skipBlank cs = [')'] ++ rest := hclose
    exact ⟨_, takeWhile_blank_append hsplit,
      fun rest' => readArgs_none (skipBlank_behind (by decide))⟩
  · obtain ⟨used, hcs, hused⟩ := readMore_alike hmore
    refine ⟨used, hcs, fun rest' => ?_⟩
    exact readArgs_more (ne_close_of_readMore (hused rest')) (hused rest')
termination_by (cs.length, 2)

theorem readMore_alike {cs rest : List Char} {args : List Arg}
    (h : Gives (Arg.readMore cs) args rest) :
    ∃ used, cs = used ++ rest ∧ ∀ rest', Gives (Arg.readMore (used ++ rest')) args rest' := by
  obtain ⟨a, ds, ha, hbehind⟩ := of_readMore h
  obtain ⟨used, hcs, hused⟩ := read_alike ha
  obtain ⟨rfl, hclose⟩ | ⟨es, as, rfl, hcomma, hmore⟩ := hbehind
  · have hsplit : skipBlank ds = [')'] ++ rest := hclose
    have hds := takeWhile_blank_append hsplit
    refine ⟨used ++ (ds.takeWhile isBlank ++ [')']), ?_, fun rest' => ?_⟩
    · rw [List.append_assoc, ← hds]
      exact hcs
    · rw [List.append_assoc]
      exact readMore_last (hused _ (head?_behind hds)) (skipBlank_behind (by decide))
  · have hlt := (length_lt_of_dropWhile_eq hcomma).trans ha.shorter
    obtain ⟨more, rfl, hmused⟩ := readMore_alike hmore
    have hsplit : skipBlank ds = [','] ++ (more ++ rest) := hcomma
    have hds := takeWhile_blank_append hsplit
    refine ⟨used ++ (ds.takeWhile isBlank ++ [','] ++ more), ?_, fun rest' => ?_⟩
    · rw [List.append_assoc, List.append_assoc, ← hds]
      exact hcs
    · rw [List.append_assoc, List.append_assoc]
      exact readMore_cons (hused _ (head?_behind hds)) (skipBlank_behind (by decide))
        (hmused rest')
termination_by (cs.length, 1)

end

/-- **A reference is an argument** in front of a text that cannot go on with it, however its indices
are spelled, unless it is a constant. -/
theorem read_spelled {b : Binding} {chars : List Char}
    (hchars : ∀ c ∈ chars, isBindingChar c = true)
    (hhead : Path.readHead chars = .ok (b.context, b.path)) (hkeyword : ¬ b.IsKeyword)
    (hcs : skipBlank cs = chars ++ rest) (hrest : Stops goesOn rest) :
    Gives (Arg.read cs) (.binding b) rest := by
  obtain ⟨hname, hsteps, hcontext, -⟩ := Path.wellFormed_of_readHead hhead
  have hcontinues := Path.continues_of_readSteps hsteps
  have hsplit : chars = b.context.toList ++ chars.dropWhile isWord := by
    rw [hname, String.toList_ofList, List.takeWhile_append_dropWhile]
  have hread : Binding.read (chars ++ rest) = .ok (b, rest) := by
    have hstop := hrest.mono fun _ => goesOn_of_isBindingChar
    rw [Binding.read, takeWhile_run hchars hstop, dropWhile_run hchars hstop, Path.parseHead, hhead]
    rfl
  generalize chars.dropWhile isWord = behind at hcontinues hsplit
  rw [hsplit, List.append_assoc] at hcs hread
  have hword := (hcontinues.stops).append (hrest.mono fun _ => goesOn_of_isWord)
  have htake := takeWhile_run hcontext.1 hword
  have hdrop := dropWhile_run hcontext.1 hword
  have hopen : Stops (· == '(') (behind ++ rest) := by
    refine (hcontinues.stops_of (by decide) (by decide)).append (hrest.mono fun c hc => ?_)
    rw [beq_iff_eq.mp hc]
    decide
  have hconstant := Binding.constant?_of_continues hcontinues hkeyword rest
  obtain ⟨c, hc, hstart⟩ := hcontext.2
  obtain ⟨ds, hds⟩ := List.head?_eq_some_iff.mp hc
  rw [hds, List.cons_append] at hcs hread htake hdrop
  refine read_binding hcs hstart (fun es hes => ?_) ?_ hread
  · rw [hdrop] at hes
    rw [hes] at hopen
    exact hopen '(' rfl (by decide)
  · rwa [htake, hdrop, ← hds]

end Arg

/-! ## Texts -/

theorem readAtoms_eq_nil (h : readAtoms cs = .ok []) : cs = [] := by
  unfold readAtoms at h
  split at h
  · rfl
  · obtain ⟨as, -, has⟩ := map_eq_ok_iff.mp h
    cases has
  · obtain ⟨as, -, has⟩ := map_eq_ok_iff.mp h
    cases has
  · split at h
    · cases h
    · split at h
      · obtain ⟨as, -, has⟩ := map_eq_ok_iff.mp h
        cases has
      · cases h
      · cases h
  · obtain ⟨as, -, has⟩ := map_eq_ok_iff.mp h
    cases has

/-- Characters that were passed are a text, which comes first. -/
theorem piecesFrom_passed (c : Char) (passed : List Char) (as : List Atom) :
    ∃ s ps, piecesFrom (c :: passed) as = .text s :: ps := by
  induction as generalizing c passed with
  | nil => exact ⟨_, [], rfl⟩
  | cons a as ih =>
    cases a with
    | char d => exact ih d (c :: passed)
    | interpolation i => exact ⟨_, .interpolation i :: piecesFrom [] as, rfl⟩

theorem piecesFrom_eq_nil {as : List Atom} (h : piecesFrom [] as = []) : as = [] := by
  cases as with
  | nil => rfl
  | cons a as =>
    cases a with
    | char c =>
      obtain ⟨s, ps, hps⟩ := piecesFrom_passed c [] as
      cases hps.symm.trans h
    | interpolation i => cases h

theorem ofPieces_eq_single {ps : List Piece} {i : Interpolation}
    (h : Expr.ofPieces ps = .single i) : ps = [.interpolation i] := by
  unfold Expr.ofPieces at h
  split at h
  · cases h
  · cases h
  · cases h
    rfl
  · cases h

theorem piecesFrom_eq_single {as : List Atom} {i : Interpolation}
    (h : piecesFrom [] as = [.interpolation i]) : as = [.interpolation i] := by
  cases as with
  | nil => cases h
  | cons a as =>
    cases a with
    | char c =>
      obtain ⟨s, ps, hps⟩ := piecesFrom_passed c [] as
      cases hps.symm.trans h
    | interpolation j =>
      obtain ⟨hj, has⟩ := List.cons.inj h
      obtain rfl := Piece.interpolation.inj hj
      rw [piecesFrom_eq_nil has]

/-- **A text is a single interpolation** if that is what stands between the braces at its ends, up
to blanks. -/
theorem Expr.parse_eq_single_iff {t : String} {i : Interpolation} :
    Expr.parse ("@\x7b" ++ t ++ "\x7d") = .ok (.single i) ↔
      ∃ rest, Gives (Interpolation.read (t.toList ++ ['}'])) i rest ∧ skipBlank rest = ['}'] := by
  have htext : ("@\x7b" ++ t ++ "\x7d").toList = '@' :: '{' :: (t.toList ++ ['}']) := by
    simp [String.toList_append]
  rw [Expr.parse, mapError_eq_ok_iff, map_eq_ok_iff, htext]
  constructor
  · rintro ⟨as, has, hsingle⟩
    obtain rfl := piecesFrom_eq_single (ofPieces_eq_single hsingle)
    rw [readAtoms] at has
    split at has
    · cases has
    · rename_i x hx
      split at has
      · rename_i rest hclose
        obtain ⟨as, has, hcons⟩ := map_eq_ok_iff.mp has
        obtain ⟨hi, rfl⟩ := List.cons.inj hcons
        rw [readAtoms_eq_nil has] at hclose
        exact ⟨x.rest, ⟨x, hx, Atom.interpolation.inj hi, rfl⟩, hclose⟩
      · cases has
      · cases has
  · rintro ⟨rest, hi, hclose⟩
    refine ⟨[.interpolation i], ?_, rfl⟩
    rw [readAtoms_interpolation hi hclose, readAtoms]
    rfl

/-! ## What stands between braces, as an argument -/

/-- A call of one argument, which stands before blanks. -/
theorem Expr.parse_call_eq {f t : String} {a : Arg} (hf : CallName f)
    (ha : Gives (Arg.read (t.toList ++ [')', '}'])) a rest) (hrest : skipBlank rest = [')', '}']) :
    Expr.parse ("@\x7b" ++ f ++ "(" ++ t ++ ")\x7d") = .ok (.single (.call f [a])) := by
  have hbraces : "@\x7b" ++ f ++ "(" ++ t ++ ")\x7d" =
      "@\x7b" ++ (f ++ "(" ++ t ++ ")") ++ "\x7d" := by
    rw [show ")\x7d" = ")" ++ "\x7d" by decide]
    simp only [String.append_assoc]
  have hcs : (f ++ "(" ++ t ++ ")").toList ++ ['}'] =
      f.toList ++ '(' :: (t.toList ++ [')', '}']) := by
    simp [String.toList_append]
  rw [hbraces, Expr.parse_eq_single_iff, hcs]
  have hmore := Arg.readMore_last ha hrest
  have hargs := Arg.readArgs_more (Arg.ne_close_of_readMore hmore) hmore
  refine ⟨['}'], Interpolation.read_name hf ?_ hargs, rfl⟩
  exact (opens_callName hf _).skipBlank_eq

/-- **An interpolation is an argument** if it can be spelled as one: a call does not begin with a
digit there, and a word that is a constant is no reference. -/
theorem Interpolation.read_toArg {i : Interpolation} {blanks : List Char}
    (h : Gives (Interpolation.read (cs ++ ['}'])) i (blanks ++ ['}']))
    (hblanks : ∀ c ∈ blanks, isBlank c = true) (hi : i.toArg.WellFormed) :
    Gives (Arg.read (cs ++ [')', '}'])) i.toArg (blanks ++ [')', '}']) := by
  -- the text up to the blanks, and what stands there instead if the text stands in a call
  have hreplace {used : List Char} (hne : used ≠ [])
      (hskip : skipBlank (cs ++ ['}']) = used ++ (blanks ++ ['}'])) :
      skipBlank (cs ++ [')', '}']) = used ++ (blanks ++ [')', '}']) := by
    have hcs := takeWhile_blank_append hskip
    rw [← List.append_assoc] at hcs
    have hskip' := skipBlank_used hskip hne (blanks ++ [')', '}'])
    rwa [← List.append_assoc, ← List.append_cancel_right hcs] at hskip'
  rcases Interpolation.of_read h with ⟨name, args, es, rfl, hname, hskip, hargs⟩ | ⟨b, rfl, hb⟩
  · obtain ⟨used, rfl, hused⟩ := Arg.readArgs_alike hargs
    rw [← List.cons_append, ← List.append_assoc] at hskip
    have hskip' := hreplace (by simp) hskip
    rw [List.append_assoc, List.cons_append] at hskip'
    exact Arg.read_name hname hi.2.1 hskip' (hused _)
  · have hrest := Binding.rest_eq hb
    have hhead := Binding.readHead_of_read hb
    have hne : (skipBlank (cs ++ ['}'])).takeWhile isBindingChar ≠ [] := by
      intro hnil
      rw [hnil] at hhead
      cases hhead
    have hskip := hreplace hne (by rw [hrest, List.takeWhile_append_dropWhile])
    refine Arg.read_spelled mem_takeWhile hhead hi.2 hskip ?_
    exact (stops_blanks hblanks).append (stops_cons (by decide) _)

/-- **What stands between braces** may stand in a call if it can be spelled as an argument. -/
theorem Expr.parse_argument {f t : String} {i : Interpolation} (hf : CallName f)
    (h : Expr.parse ("@\x7b" ++ t ++ "\x7d") = .ok (.single i)) (hi : i.toArg.WellFormed) :
    Expr.parse ("@\x7b" ++ f ++ "(" ++ t ++ ")\x7d") = .ok (.single (.call f [i.toArg])) := by
  obtain ⟨rest, hread, hclose⟩ := Expr.parse_eq_single_iff.mp h
  have hrest : rest = rest.takeWhile isBlank ++ ['}'] := by
    rw [← hclose]
    exact List.takeWhile_append_dropWhile.symm
  rw [hrest] at hread
  refine Expr.parse_call_eq hf (Interpolation.read_toArg hread mem_takeWhile hi) ?_
  exact dropWhile_run mem_takeWhile (stops_cons (by decide) _)

/-- **A text means the same between braces and as an argument** exactly if its call does not begin
with a digit, or if its reference is not one of the words that are constants among arguments. -/
theorem Expr.parse_argument_iff {f t : String} (hf : CallName f) :
    (∀ name args, Expr.parse ("@\x7b" ++ t ++ "\x7d") = .ok (.single (.call name args)) →
      (Expr.parse ("@\x7b" ++ f ++ "(" ++ t ++ ")\x7d") =
          .ok (.single (.call f [.call name args])) ↔ Stops Char.isDigit name.toList)) ∧
    ∀ b, Expr.parse ("@\x7b" ++ t ++ "\x7d") = .ok (.single (.binding b)) →
      (Expr.parse ("@\x7b" ++ f ++ "(" ++ t ++ ")\x7d") = .ok (.single (.call f [.binding b])) ↔
        ¬ b.IsKeyword) := by
  refine ⟨fun name args h => ⟨fun hnested => ?_, fun hdigit => ?_⟩,
    fun b h => ⟨fun hnested => ?_, fun hkeyword => ?_⟩⟩
  · exact (Expr.wellFormed_of_parse hnested).2.1.2.1
  · obtain ⟨hname, hargs⟩ := Expr.wellFormed_of_parse h
    exact Expr.parse_argument hf h ⟨hname, hdigit, hargs⟩
  · exact (Expr.wellFormed_of_parse hnested).2.1.2
  · exact Expr.parse_argument hf h ⟨Expr.wellFormed_of_parse h, hkeyword⟩

/-- With a brace in a string among the arguments of a call, and a reference that begins with a word
that would be a constant by itself. -/
theorem Expr.parse_argument_iff_of_brace :
    Expr.parse "@\x7bf_2(g(a, '\x7d'))\x7d" =
      .ok (.single (.call "f_2" [.call "g" [.binding ⟨"a", []⟩, .literal (.string "\x7d")]])) ∧
    Expr.parse "@\x7bf_2(true[7])\x7d" =
      .ok (.single (.call "f_2" [.binding ⟨"true", [.index 7]⟩])) := by
  let call : Expr := .single (.call "g" [.binding ⟨"a", []⟩, .literal (.string "\x7d")])
  let reference : Expr := .single (.binding ⟨"true", [.index 7]⟩)
  have hname : CallName "f_2" := by decide
  have hcall : Expr.parse ("@\x7b" ++ "g(a, '\x7d')" ++ "\x7d") = .ok call :=
    Expr.parse_render_of_wellFormed (e := call) (by decide)
  have hreference : Expr.parse ("@\x7b" ++ "true[7]" ++ "\x7d") = .ok reference :=
    Expr.parse_render_of_wellFormed (e := reference) (by decide)
  exact ⟨((Expr.parse_argument_iff hname).1 _ _ hcall).mpr (by decide),
    ((Expr.parse_argument_iff hname).2 _ hreference).mpr (by decide)⟩

/-- A call whose name begins with a digit is no argument: its digits are read as a number. -/
theorem Expr.parse_argument_of_digit :
    CallName "f" ∧
    Expr.parse "@\x7b2op(1)\x7d" = .ok (.single (.call "2op" [.literal (.int 1)])) ∧
    Expr.parse "@\x7bf(2op(1))\x7d" = .error (.invalidNumber "2") ∧
    Expr.parse "@\x7bf(2op(1))\x7d" ≠
      .ok (.single (.call "f" [.call "2op" [.literal (.int 1)]])) := by
  have hnested : Expr.parse "@\x7bf(2op(1))\x7d" = .error (.invalidNumber "2") := by cbv
  refine ⟨by decide, by cbv, hnested, ?_⟩
  intro h
  cases hnested.symm.trans h

end DataBinding
