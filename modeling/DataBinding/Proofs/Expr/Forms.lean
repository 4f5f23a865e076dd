import DataBinding.Expr.Reader
import DataBinding.Proofs.Expr.WellFormed

/-!
# The forms of an argument

Each form of an argument is told from the others by its first character, and a word by what stands
behind it. Here is what the reader gives for each of them, and that it gives nothing else.

* `outcome`: what a reader gives, without the proof that it uses up text. `Arg.outcome_read_quote`,
  `Arg.outcome_read_cons`, `Arg.outcome_readMore`, `Interpolation.outcome_read`: the readers as
  equations, which is all that is used of them.
* `Gives`: that a reader gives a thing, and the text it leaves.
* `Arg.read_quoted`, `Arg.read_number`, `Arg.read_call`, `Arg.read_constant`, `Arg.read_binding`:
  the forms.
* `Arg.Form`, `Arg.read_iff`: an argument that is read has one of them.
* `Arg.readArgs_none`, `Arg.readMore_last`, `Arg.readMore_cons`: lists of arguments;
  `Arg.of_readArgs`, `Arg.of_readMore`: what a list that is read begins with.
* `Interpolation.read_call`, `Interpolation.read_binding`, `readAtoms_interpolation`: what may stand
  between braces; `Interpolation.of_read`: what does if it is read.
-/

namespace DataBinding

open Text

/-- What a reader gives, without the proof that it uses up text: the thing and the rest of the text,
or a fault. -/
def outcome {α : Type} {cs : List Char} (r : Except Fault (Taken α cs)) :
    Except Fault (α × List Char) :=
  r.map fun t => (t.value, t.rest)

/-- The reader gives the thing and leaves the rest of the text. -/
def Gives {α : Type} {cs : List Char} (r : Except Fault (Taken α cs)) (a : α)
    (rest : List Char) : Prop :=
  ∃ t, r = .ok t ∧ t.value = a ∧ t.rest = rest

variable {α : Type} {c : Char} {cs ds es rest : List Char}

@[simp] theorem outcome_ok (t : Taken α cs) : outcome (.ok t) = .ok (t.value, t.rest) := rfl

@[simp] theorem outcome_error (e : Fault) :
    outcome (.error e : Except Fault (Taken α cs)) = .error e := rfl

theorem gives_iff {r : Except Fault (Taken α cs)} {a : α} :
    Gives r a rest ↔ outcome r = .ok (a, rest) := by
  rw [outcome, map_eq_ok_iff]
  simp only [Gives, Prod.mk.injEq]

theorem Gives.shorter {r : Except Fault (Taken α cs)} {a : α} (h : Gives r a rest) :
    rest.length < cs.length := by
  obtain ⟨t, -, -, rfl⟩ := h
  exact t.shorter

/-- What stands behind the parenthesis of a call is shorter than the text with the call. -/
theorem length_lt_of_call (hcs : skipBlank cs = c :: ds) (hc : isWord c = true)
    (hbehind : (c :: ds).dropWhile isWord = '(' :: es) : es.length < cs.length := by
  have hblank := length_skipBlank_le cs
  have hword := length_dropWhile_lt hc ds
  rw [hbehind, List.length_cons] at hword
  rw [hcs] at hblank
  omega

theorem callName_takeWhile
    (h : isOperationName (String.ofList (cs.takeWhile isWord)) = true) :
    CallName (String.ofList (cs.takeWhile isWord)) := by
  rw [isOperationName, Bool.and_eq_true, List.any_eq_true] at h
  refine ⟨?_, h.2⟩
  rw [String.toList_ofList]
  exact mem_takeWhile

/-- A call of the name, whose arguments stand behind the parenthesis: what `f` makes of the name and
the arguments, if the name may be that of an operation. -/
def called (name es : List Char) (f : String → List Arg → α) : Except Fault (α × List Char) :=
  if isOperationName (String.ofList name) then
    (outcome (Arg.readArgs es)).map fun t => (f (String.ofList name) t.1, t.2)
  else .error (.invalidOperationName (String.ofList name))

theorem called_eq_ok_iff {name : List Char} {f : String → List Arg → α} {a : α} :
    called name es f = .ok (a, rest) ↔ isOperationName (String.ofList name) = true ∧
      ∃ args, Gives (Arg.readArgs es) args rest ∧ f (String.ofList name) args = a := by
  unfold called
  split
  · rename_i hname
    rw [map_eq_ok_iff]
    simp [hname, gives_iff]
  · rename_i hname
    simp [hname]

namespace Arg

/-! ## One argument -/

theorem outcome_read_nil (h : skipBlank cs = []) :
    outcome (Arg.read cs) = .error .unexpectedEnd := by
  rw [Arg.read]
  split
  · rfl
  · simp_all
  · simp_all

theorem outcome_read_quote (h : skipBlank cs = '\'' :: ds) :
    outcome (Arg.read cs) = (readQuoted ds).elim (.error (.unclosedString ('\'' :: ds)))
      fun t => .ok (.literal (.string (String.ofList t.1)), t.2) := by
  rw [Arg.read]
  split
  · simp_all
  · rename_i hds
    obtain ⟨-, rfl⟩ := List.cons.inj (h.symm.trans hds)
    split <;> rename_i hq <;> simp [hq]
  · simp_all

/-- What begins with no quote is a number or a word. -/
theorem outcome_read_cons (h : skipBlank cs = c :: ds) (hquote : c ≠ '\'') :
    outcome (Arg.read cs) =
      if c = '-' ∨ c.isDigit then (readNumber (c :: ds)).map fun t => (.literal t.1, t.2)
      else if isWord c then
        match (c :: ds).dropWhile isWord with
        | '(' :: es => called ((c :: ds).takeWhile isWord) es .call
        | rest => (constant? ((c :: ds).takeWhile isWord) rest).elim
            ((Binding.read (c :: ds)).map fun t => (.binding t.1, t.2))
            fun v => .ok (.literal v, rest)
      else .error (.unexpectedChar c (c :: ds)) := by
  rw [Arg.read]
  split
  · simp_all
  · rename_i hds
    exact absurd (List.cons.inj (h.symm.trans hds)).1 hquote
  · rename_i hds
    obtain ⟨rfl, rfl⟩ := List.cons.inj (h.symm.trans hds)
    split
    · split <;> rename_i hv <;> simp only [hv] <;> rfl
    · split
      · simp only
        split
        · rename_i hes
          simp only [hes, called]
          split
          · split <;> rename_i hargs <;> rw [hargs] <;> rfl
          · rfl
        · rename_i hparen
          symm
          split
          · rename_i hes
            exact (hparen _ hes).elim
          · split
            · rename_i hv
              rw [hv]
              rfl
            · rename_i hv
              simp only [hv]
              split <;> rename_i hb <;> simp only [hb] <;> rfl
      · rfl

theorem read_quoted {s : List Char} (h : skipBlank cs = '\'' :: ds)
    (hq : readQuoted ds = some (s, rest)) :
    Gives (Arg.read cs) (.literal (.string (String.ofList s))) rest := by
  rw [gives_iff, outcome_read_quote h, hq]
  rfl

theorem read_number {v : Value} (h : skipBlank cs = c :: ds) (hc : c = '-' ∨ c.isDigit = true)
    (hv : readNumber (c :: ds) = .ok (v, rest)) : Gives (Arg.read cs) (.literal v) rest := by
  have hquote : c ≠ '\'' := by
    rintro rfl
    simp at hc
  rw [gives_iff, outcome_read_cons h hquote, if_pos hc, hv]
  rfl

section Word

theorem ne_quote (hc : isWordStart c = true) : c ≠ '\'' := by
  rintro rfl
  revert hc
  decide

theorem not_number (hc : isWordStart c = true) : ¬ (c = '-' ∨ c.isDigit = true) := by
  rintro (rfl | hd)
  · revert hc
    decide
  · exact not_isDigit_of_isWordStart hc hd

theorem outcome_read_call (h : skipBlank cs = c :: ds) (hc : isWordStart c = true)
    (hbehind : (c :: ds).dropWhile isWord = '(' :: es) :
    outcome (Arg.read cs) = called ((c :: ds).takeWhile isWord) es .call := by
  rw [outcome_read_cons h (ne_quote hc), if_neg (not_number hc), if_pos (isWord_of_isWordStart hc),
    hbehind]
  rfl

theorem outcome_read_word (h : skipBlank cs = c :: ds) (hc : isWordStart c = true)
    (hbehind : ∀ es, (c :: ds).dropWhile isWord ≠ '(' :: es) :
    outcome (Arg.read cs) =
      (constant? ((c :: ds).takeWhile isWord) ((c :: ds).dropWhile isWord)).elim
        ((Binding.read (c :: ds)).map fun t => (.binding t.1, t.2))
        fun v => .ok (.literal v, (c :: ds).dropWhile isWord) := by
  rw [outcome_read_cons h (ne_quote hc), if_neg (not_number hc), if_pos (isWord_of_isWordStart hc)]
  split
  · rename_i hes
    exact absurd hes (hbehind _)
  · rfl

theorem read_call {args : List Arg} (h : skipBlank cs = c :: ds) (hc : isWordStart c = true)
    (hbehind : (c :: ds).dropWhile isWord = '(' :: es)
    (hname : isOperationName (String.ofList ((c :: ds).takeWhile isWord)) = true)
    (hargs : Gives (Arg.readArgs es) args rest) :
    Gives (Arg.read cs) (.call (String.ofList ((c :: ds).takeWhile isWord)) args) rest := by
  rw [gives_iff, outcome_read_call h hc hbehind]
  exact called_eq_ok_iff.mpr ⟨hname, args, hargs, rfl⟩

theorem read_constant {v : Value} (h : skipBlank cs = c :: ds) (hc : isWordStart c = true)
    (hbehind : ∀ es, (c :: ds).dropWhile isWord ≠ '(' :: es)
    (hv : constant? ((c :: ds).takeWhile isWord) ((c :: ds).dropWhile isWord) = some v) :
    Gives (Arg.read cs) (.literal v) ((c :: ds).dropWhile isWord) := by
  rw [gives_iff, outcome_read_word h hc hbehind, hv]
  rfl

theorem read_binding {b : Binding} (h : skipBlank cs = c :: ds) (hc : isWordStart c = true)
    (hbehind : ∀ es, (c :: ds).dropWhile isWord ≠ '(' :: es)
    (hv : constant? ((c :: ds).takeWhile isWord) ((c :: ds).dropWhile isWord) = none)
    (hb : Binding.read (c :: ds) = .ok (b, rest)) : Gives (Arg.read cs) (.binding b) rest := by
  rw [gives_iff, outcome_read_word h hc hbehind, hv, hb]
  rfl

end Word

/-- The forms in which an argument stands at the front of a text: a string or a number, told by its
first character, or a word, told by what stands behind it. -/
inductive Form (cs : List Char) : Arg → List Char → Prop
  | quoted {ds s rest : List Char} (first : skipBlank cs = '\'' :: ds)
      (string : readQuoted ds = some (s, rest)) :
      Form cs (.literal (.string (String.ofList s))) rest
  | number {c : Char} {ds rest : List Char} {v : Value} (first : skipBlank cs = c :: ds)
      (begins : c = '-' ∨ c.isDigit = true) (number : readNumber (c :: ds) = .ok (v, rest)) :
      Form cs (.literal v) rest
  | call {c : Char} {ds es rest : List Char} {args : List Arg} (first : skipBlank cs = c :: ds)
      (begins : isWordStart c = true) (behind : (c :: ds).dropWhile isWord = '(' :: es)
      (name : isOperationName (String.ofList ((c :: ds).takeWhile isWord)) = true)
      (arguments : Gives (Arg.readArgs es) args rest) :
      Form cs (.call (String.ofList ((c :: ds).takeWhile isWord)) args) rest
  | constant {c : Char} {ds : List Char} {v : Value} (first : skipBlank cs = c :: ds)
      (begins : isWordStart c = true) (behind : ∀ es, (c :: ds).dropWhile isWord ≠ '(' :: es)
      (constant : constant? ((c :: ds).takeWhile isWord) ((c :: ds).dropWhile isWord) = some v) :
      Form cs (.literal v) ((c :: ds).dropWhile isWord)
  | binding {c : Char} {ds rest : List Char} {b : Binding} (first : skipBlank cs = c :: ds)
      (begins : isWordStart c = true) (behind : ∀ es, (c :: ds).dropWhile isWord ≠ '(' :: es)
      (constant : constant? ((c :: ds).takeWhile isWord) ((c :: ds).dropWhile isWord) = none)
      (binding : Binding.read (c :: ds) = .ok (b, rest)) : Form cs (.binding b) rest

/-- What begins with no quote, and is no number, is a word. -/
theorem form_of_word {a : Arg} (hcs : skipBlank cs = c :: ds) (hc : isWordStart c = true)
    (h : outcome (Arg.read cs) = .ok (a, rest)) : Form cs a rest := by
  by_cases hbehind : ∃ es, (c :: ds).dropWhile isWord = '(' :: es
  · obtain ⟨es, hes⟩ := hbehind
    rw [outcome_read_call hcs hc hes] at h
    obtain ⟨hname, args, hargs, rfl⟩ := called_eq_ok_iff.mp h
    exact .call hcs hc hes hname hargs
  · have hword := not_exists.mp hbehind
    rw [outcome_read_word hcs hc hword] at h
    cases hconstant : constant? ((c :: ds).takeWhile isWord) ((c :: ds).dropWhile isWord) with
    | some v =>
      rw [hconstant] at h
      cases h
      exact .constant hcs hc hword hconstant
    | none =>
      rw [hconstant] at h
      obtain ⟨t, hb, ht⟩ := map_eq_ok_iff.mp h
      cases ht
      exact .binding hcs hc hword hconstant hb

theorem form_of_read {a : Arg} (h : outcome (Arg.read cs) = .ok (a, rest)) : Form cs a rest := by
  cases hcs : skipBlank cs with
  | nil =>
    rw [outcome_read_nil hcs] at h
    cases h
  | cons c ds =>
    by_cases hquote : c = '\''
    · subst hquote
      rw [outcome_read_quote hcs] at h
      cases hq : readQuoted ds with
      | none =>
        rw [hq] at h
        cases h
      | some t =>
        rw [hq] at h
        cases h
        exact .quoted hcs hq
    · by_cases hfirst : c = '-' ∨ c.isDigit = true
      · rw [outcome_read_cons hcs hquote, if_pos hfirst] at h
        obtain ⟨t, hv, ht⟩ := map_eq_ok_iff.mp h
        cases ht
        exact .number hcs hfirst hv
      · by_cases hc : isWord c = true
        · exact form_of_word hcs (isWordStart_of_isWord hc fun hd => hfirst (.inr hd)) h
        · rw [outcome_read_cons hcs hquote, if_neg hfirst, if_neg hc] at h
          cases h

/-- **An argument is read** exactly if the text begins with one of its forms. -/
theorem read_iff {a : Arg} : Gives (Arg.read cs) a rest ↔ Form cs a rest := by
  constructor
  · exact fun h => form_of_read (gives_iff.mp h)
  · intro h
    cases h with
    | quoted hcs hquoted => exact read_quoted hcs hquoted
    | number hcs hfirst hnumber => exact read_number hcs hfirst hnumber
    | call hcs hstart hbehind hname hargs => exact read_call hcs hstart hbehind hname hargs
    | constant hcs hstart hbehind hconstant => exact read_constant hcs hstart hbehind hconstant
    | binding hcs hstart hbehind hconstant hbinding =>
      exact read_binding hcs hstart hbehind hconstant hbinding

/-- No form begins with the parenthesis that closes a call. -/
theorem Form.ne_close {a : Arg} (h : Form cs a rest) (ds : List Char) :
    skipBlank cs ≠ ')' :: ds := by
  intro hclose
  cases h with
  | quoted hcs => cases hcs.symm.trans hclose
  | number hcs hfirst =>
    obtain ⟨rfl, -⟩ := List.cons.inj (hcs.symm.trans hclose)
    exact absurd hfirst (by decide)
  | call hcs hstart | constant hcs hstart | binding hcs hstart =>
    obtain ⟨rfl, -⟩ := List.cons.inj (hcs.symm.trans hclose)
    exact absurd hstart (by decide)

/-! ## The arguments of a call -/

theorem outcome_readArgs_close (h : skipBlank cs = ')' :: rest) :
    outcome (Arg.readArgs cs) = .ok ([], rest) := by
  rw [Arg.readArgs]
  split
  · rename_i hds
    obtain ⟨-, rfl⟩ := List.cons.inj (h.symm.trans hds)
    rfl
  · simp_all

theorem outcome_readArgs_more (h : ∀ ds, skipBlank cs ≠ ')' :: ds) :
    outcome (Arg.readArgs cs) = outcome (Arg.readMore cs) := by
  rw [Arg.readArgs]
  split
  · rename_i hds
    exact absurd hds (h _)
  · rfl

theorem outcome_readMore (cs : List Char) :
    outcome (Arg.readMore cs) = (outcome (Arg.read cs)).bind fun t =>
      match skipBlank t.2 with
      | ')' :: rest => .ok ([t.1], rest)
      | ',' :: rest => (outcome (Arg.readMore rest)).map fun ts => (t.1 :: ts.1, ts.2)
      | ds => .error (unexpected ds) := by
  rw [Arg.readMore]
  cases Arg.read cs with
  | error e => rfl
  | ok a =>
    simp only [outcome_ok, Except.bind]
    split
    · rename_i hclose
      simp only [hclose]
      rfl
    · rename_i es hcomma
      simp only [hcomma]
      cases Arg.readMore es <;> rfl
    · rename_i hclose hcomma
      symm
      split
      · rename_i h
        exact (hclose _ h).elim
      · rename_i h
        exact (hcomma _ h).elim
      · rfl

theorem readArgs_none (h : skipBlank cs = ')' :: rest) : Gives (Arg.readArgs cs) [] rest :=
  gives_iff.mpr (outcome_readArgs_close h)

theorem readArgs_more {args : List Arg} (h : ∀ ds, skipBlank cs ≠ ')' :: ds)
    (hargs : Gives (Arg.readMore cs) args rest) : Gives (Arg.readArgs cs) args rest := by
  rw [gives_iff] at hargs ⊢
  rwa [outcome_readArgs_more h]

theorem readMore_last {a : Arg} (ha : Gives (Arg.read cs) a ds) (h : skipBlank ds = ')' :: rest) :
    Gives (Arg.readMore cs) [a] rest := by
  rw [gives_iff] at ha ⊢
  rw [outcome_readMore, ha]
  simp only [Except.bind, h]

theorem readMore_cons {a : Arg} {args : List Arg} (ha : Gives (Arg.read cs) a ds)
    (h : skipBlank ds = ',' :: es) (hargs : Gives (Arg.readMore es) args rest) :
    Gives (Arg.readMore cs) (a :: args) rest := by
  rw [gives_iff] at ha hargs ⊢
  rw [outcome_readMore, ha]
  simp only [Except.bind, h, hargs]
  rfl

/-- What stands behind the opening parenthesis of a call is the closing one, or an argument. -/
theorem of_readArgs {args : List Arg} (h : Gives (Arg.readArgs cs) args rest) :
    (args = [] ∧ skipBlank cs = ')' :: rest) ∨ Gives (Arg.readMore cs) args rest := by
  rw [gives_iff] at h
  by_cases hclose : ∃ ds, skipBlank cs = ')' :: ds
  · obtain ⟨ds, hds⟩ := hclose
    rw [outcome_readArgs_close hds] at h
    cases h
    exact .inl ⟨rfl, hds⟩
  · rw [outcome_readArgs_more (not_exists.mp hclose)] at h
    exact .inr (gives_iff.mpr h)

/-- The arguments that are read begin with one that stands before the closing parenthesis, or before
a comma and more of them. -/
theorem of_readMore {args : List Arg} (h : Gives (Arg.readMore cs) args rest) :
    ∃ a ds, Gives (Arg.read cs) a ds ∧ ((args = [a] ∧ skipBlank ds = ')' :: rest) ∨
      ∃ es as, args = a :: as ∧ skipBlank ds = ',' :: es ∧ Gives (Arg.readMore es) as rest) := by
  rw [gives_iff, outcome_readMore] at h
  cases hfirst : outcome (Arg.read cs) with
  | error e =>
    rw [hfirst] at h
    cases h
  | ok t =>
    rw [hfirst] at h
    refine ⟨t.1, t.2, gives_iff.mpr hfirst, ?_⟩
    simp only [Except.bind] at h
    split at h
    · rename_i hclose
      cases h
      exact .inl ⟨rfl, hclose⟩
    · rename_i es hcomma
      obtain ⟨ts, hmore, hts⟩ := map_eq_ok_iff.mp h
      cases hts
      exact .inr ⟨es, ts.1, rfl, hcomma, gives_iff.mpr hmore⟩
    · cases h

theorem ne_close_of_readMore {args : List Arg} (h : Gives (Arg.readMore cs) args rest)
    (ds : List Char) : skipBlank cs ≠ ')' :: ds := by
  obtain ⟨a, behind, ha, -⟩ := of_readMore h
  exact (read_iff.mp ha).ne_close ds

end Arg

namespace Interpolation

/-! ## What stands between braces -/

theorem outcome_read (cs : List Char) :
    outcome (Interpolation.read cs) =
      if (skipBlank cs).takeWhile isWord = [] then .error (unexpected (skipBlank cs))
      else
        match (skipBlank cs).dropWhile isWord with
        | '(' :: es => called ((skipBlank cs).takeWhile isWord) es .call
        | _ => (Binding.read (skipBlank cs)).map fun t => (.binding t.1, t.2) := by
  unfold Interpolation.read
  simp only
  split
  · rename_i hempty
    rw [if_pos hempty]
    rfl
  · rename_i hword
    rw [if_neg hword]
    split
    · rename_i es hes
      simp only [hes, called]
      split
      · cases Arg.readArgs es <;> rfl
      · rfl
    · rename_i hparen
      symm
      split
      · rename_i hes
        exact (hparen _ hes).elim
      · split <;> rename_i hb <;> simp only [hb] <;> rfl

theorem read_call {args : List Arg} (hword : (skipBlank cs).takeWhile isWord ≠ [])
    (hbehind : (skipBlank cs).dropWhile isWord = '(' :: es)
    (hname : isOperationName (String.ofList ((skipBlank cs).takeWhile isWord)) = true)
    (hargs : Gives (Arg.readArgs es) args rest) :
    Gives (Interpolation.read cs) (.call (String.ofList ((skipBlank cs).takeWhile isWord)) args)
      rest := by
  rw [gives_iff, outcome_read, if_neg hword, hbehind]
  exact called_eq_ok_iff.mpr ⟨hname, args, hargs, rfl⟩

theorem read_binding {b : Binding} (hword : (skipBlank cs).takeWhile isWord ≠ [])
    (hbehind : ∀ es, (skipBlank cs).dropWhile isWord ≠ '(' :: es)
    (hb : Binding.read (skipBlank cs) = .ok (b, rest)) :
    Gives (Interpolation.read cs) (.binding b) rest := by
  rw [gives_iff, outcome_read, if_neg hword]
  split
  · rename_i hes
    exact absurd hes (hbehind _)
  · rw [hb]
    rfl

/-- **An interpolation that is read** is a call or a reference that the text behind the blanks
begins with. -/
theorem of_read {i : Interpolation} (h : Gives (Interpolation.read cs) i rest) :
    (∃ name args es, i = .call name args ∧ CallName name ∧
      skipBlank cs = name.toList ++ '(' :: es ∧ Gives (Arg.readArgs es) args rest) ∨
    ∃ b, i = .binding b ∧ Binding.read (skipBlank cs) = .ok (b, rest) := by
  have hsplit := List.takeWhile_append_dropWhile (p := isWord) (l := skipBlank cs)
  rw [gives_iff, outcome_read] at h
  split at h
  · cases h
  · split at h
    · rename_i es hes
      obtain ⟨hname, args, hargs, rfl⟩ := called_eq_ok_iff.mp h
      refine .inl ⟨_, args, es, rfl, callName_takeWhile hname, ?_, hargs⟩
      rw [String.toList_ofList, ← hes, hsplit]
    · obtain ⟨t, hb, ht⟩ := map_eq_ok_iff.mp h
      cases ht
      exact .inr ⟨t.1, rfl, hb⟩

end Interpolation

theorem readAtoms_interpolation {i : Interpolation} (hi : Gives (Interpolation.read cs) i ds)
    (h : skipBlank ds = '}' :: rest) :
    readAtoms ('@' :: '{' :: cs) = (readAtoms rest).map (.interpolation i :: ·) := by
  obtain ⟨t, ht, rfl, rfl⟩ := hi
  rw [readAtoms, ht]
  simp only
  split
  · rename_i hds
    obtain ⟨-, rfl⟩ := List.cons.inj (h.symm.trans hds)
    rfl
  · simp_all
  · simp_all

end DataBinding
