import DataBinding.Proofs.Expr.Image
import DataBinding.Proofs.Path.Cursor

/-!
# Reading expressions by offset

An expression too can be read with an offset in bytes for the place: two bytes further behind `@{`,
one at each character that belongs to a word, a number or a path, and the length of the character at
all others. Such a reader always slices between characters and ends, agrees with `Expr.parse`, and
the offsets of its faults are those of the places that the faults are about.

* `ParseError.Marks`: what stands at the offset of a fault. `ParseError.InText`: where that is.
* `Cursor.argumentsIn`, `Cursor.call`, `Cursor.interpolation`, `Cursor.atomsIn`, `Cursor.expr`: the
  reader.
* `reads_argument`, `reads_interpolation`, `reads_atomsIn`: each part does what its twin does.
* `Expr.parse?_eq_parse`: both readers agree, and where faults are.
-/

namespace DataBinding

open Text

/-! ## The places of faults -/

namespace ParseError

/-- What stands at the offset that the fault names, or where the text that it quotes stands. The
place of a fault in a path is counted from the path's own text. -/
def Marks (text : List Char) : ParseError Nat → Prop
  | .unclosedInterpolation n => ∃ rest, At text n ('@' :: '{' :: rest)
  | .unexpectedChar c n => ∃ rest, At text n (c :: rest)
  | .unexpectedEnd => True
  | .unclosedString n => ∃ rest, At text n ('\'' :: rest)
  | .invalidNumber t => ∃ n rest, At text n (t.toList ++ rest)
  | .invalidOperationName name => ∃ n rest, At text n (name.toList ++ '(' :: rest)
  | .invalidBinding t cause => (∃ n rest, At text n (t.toList ++ rest)) ∧ cause.Marks t.toList

/-- The offset of the fault lies at a boundary of the text, and that of its cause, if it has one, at
a boundary of the text of the path. -/
def InText (s : String) : ParseError Nat → Prop
  | .unclosedInterpolation n | .unexpectedChar _ n | .unclosedString n => Boundary s n
  | .invalidBinding t cause => cause.InText t
  | .unexpectedEnd | .invalidNumber _ | .invalidOperationName _ => True

theorem Marks.inText {s : String} {e : ParseError Nat} (h : e.Marks s.toList) : e.InText s := by
  cases e with
  | unclosedInterpolation n =>
    obtain ⟨rest, hat⟩ := h
    exact hat.boundary
  | unexpectedChar c n =>
    obtain ⟨rest, hat⟩ := h
    exact hat.boundary
  | unclosedString n =>
    obtain ⟨rest, hat⟩ := h
    exact hat.boundary
  | invalidBinding t cause => exact PathError.Marks.inText h.2
  | unexpectedEnd => trivial
  | invalidNumber t => trivial
  | invalidOperationName name => trivial

end ParseError

/-! ## The reader -/

namespace Text.Cursor

variable {α : Type}

/-- Blanks, of any script. -/
def blanks (text : List Char) : Cursor (ParseError Nat) Unit :=
  skipWhile text isBlank Char.utf8Size

/-- The fault of text that cannot stand where it does, or of missing text. -/
def unexpected (text : List Char) : Cursor (ParseError Nat) α := do
  match ← peek text with
  | some c => throw (.unexpectedChar c (← get))
  | none => throw .unexpectedEnd

/-- Word characters, of which there may be none. -/
def word (text : List Char) : Cursor (ParseError Nat) (List Char) := do
  let start ← get
  skipWhile text isWord fun _ => 1
  passed text start

/-- The path that another text spells. -/
def pathOf (chars : List Char) : Cursor (ParseError Nat) Path := fun n =>
  ExceptT.mk ((Path.parse? (String.ofList chars)).map fun r =>
    (r.map (·, n)).mapError (.invalidBinding (String.ofList chars)))

/-- The rest of a reference, the word it begins with being passed; the reference begins at
`start`. -/
def binding (text : List Char) (start : Nat) : Cursor (ParseError Nat) Binding := do
  skipWhile text isBindingChar fun _ => 1
  let chars ← passed text start
  match ← pathOf chars with
  | .key context :: path => return ⟨context, path⟩
  | _ => throw (.unexpectedChar (chars.headD '\x00') start)

/-- A string up to its closing apostrophe, in a number of turns; its opening one stands at
`start`. -/
def quotedIn (text : List Char) (start : Nat) : Nat → Cursor (ParseError Nat) (List Char)
  | turns + 1 => do
    match ← peek text with
    | none => throw (.unclosedString start)
    | some c =>
      advance c.utf8Size
      if c = '\'' then return []
      else if c = '\\' then
        match ← peek text with
        | some '\'' =>
          advance 1
          return '\'' :: (← quotedIn text start turns)
        | some '\\' =>
          advance 1
          return '\\' :: (← quotedIn text start turns)
        | _ => return '\\' :: (← quotedIn text start turns)
      else return c :: (← quotedIn text start turns)
  | 0 => stuck

/-- A string between apostrophes. -/
def quoted (text : List Char) : Cursor (ParseError Nat) (List Char) := do
  let start ← get
  advance 1
  quotedIn text start (text.length + 1)

/-- One character of a class, if there is one. -/
def skipOne (text : List Char) (p : Char → Bool) : Cursor (ParseError Nat) Unit := do
  match ← peek text with
  | some c => if p c then advance 1 else return ()
  | none => return ()

/-- The exponent of a number, if there is one. -/
def exponent (text : List Char) : Cursor (ParseError Nat) Unit := do
  match ← peek text with
  | some c =>
    if c = 'e' ∨ c = 'E' then
      advance 1
      skipOne text fun c => c == '+' || c == '-'
      skipWhile text Char.isDigit fun _ => 1
    else return ()
  | none => return ()

/-- A number. -/
def number (text : List Char) : Cursor (ParseError Nat) Value := do
  let start ← get
  skipOne text (· == '-')
  skipWhile text isMantissaChar fun _ => 1
  exponent text
  let chars ← passed text start
  let next ← peek text
  if next.any isWord then throw (.invalidNumber (String.ofList chars))
  else
    match numberValue? chars with
    | some v => return v
    | none => throw (.invalidNumber (String.ofList chars))

/-- An argument that begins with a word and is no call: a constant or a reference. The word was
passed; it begins at `start`. -/
def constant (text : List Char) (start : Nat) (word : List Char) : Cursor (ParseError Nat) Arg := do
  match ← peek text with
  | some '.' => return .binding (← binding text start)
  | some '[' => return .binding (← binding text start)
  | _ =>
    match keyword? word with
    | some v => return .literal v
    | none => return .binding (← binding text start)

/-- The arguments of a call whose name was passed, with their parentheses; `arguments` reads one at
least. -/
def callWith (text : List Char) (arguments : Cursor (ParseError Nat) (List Arg))
    (name : List Char) : Cursor (ParseError Nat) (List Arg) := do
  if isOperationName (String.ofList name) then
    advance 1
    blanks text
    match ← peek text with
    | some ')' =>
      advance 1
      return []
    | _ => arguments
  else throw (.invalidOperationName (String.ofList name))

/-- One argument; `arguments` reads those of a call, one at least. -/
def argumentWith (text : List Char) (arguments : Cursor (ParseError Nat) (List Arg)) :
    Cursor (ParseError Nat) Arg := do
  blanks text
  match ← peek text with
  | some '\'' => return .literal (.string (String.ofList (← quoted text)))
  | some c =>
    if c = '-' ∨ c.isDigit then return .literal (← number text)
    else if isWord c then
      let start ← get
      let chars ← word text
      match ← peek text with
      | some '(' => return .call (String.ofList chars) (← callWith text arguments chars)
      | _ => constant text start chars
    else unexpected text
  | none => unexpected text

/-- One argument at least and the closing parenthesis, in a number of turns: one for each argument,
and for each call among them. -/
def argumentsIn (text : List Char) : Nat → Cursor (ParseError Nat) (List Arg)
  | turns + 1 => do
    let a ← argumentWith text (argumentsIn text turns)
    blanks text
    match ← peek text with
    | some ',' =>
      advance 1
      return a :: (← argumentsIn text turns)
    | some ')' =>
      advance 1
      return [a]
    | _ => unexpected text
  | 0 => stuck

/-- The arguments of a call whose name was passed, with their parentheses. -/
def call (text : List Char) : List Char → Cursor (ParseError Nat) (List Arg) :=
  callWith text (argumentsIn text (text.length + 1))

/-- What stands behind `@{`, up to the blanks before the closing brace. -/
def interpolation (text : List Char) : Cursor (ParseError Nat) Interpolation := do
  blanks text
  let start ← get
  let chars ← word text
  if chars = [] then unexpected text
  else
    match ← peek text with
    | some '(' => return .call (String.ofList chars) (← call text chars)
    | _ => return .binding (← binding text start)

/-- The elements of a text to its end, in a number of turns. -/
def atomsIn (text : List Char) : Nat → Cursor (ParseError Nat) (List Atom)
  | turns + 1 => do
    match ← left text with
    | [] => return []
    | '\\' :: '\\' :: _ =>
      advance 2
      return .char '\\' :: (← atomsIn text turns)
    | '\\' :: '@' :: '{' :: _ =>
      advance 3
      return .char '@' :: .char '{' :: (← atomsIn text turns)
    | '@' :: '{' :: _ =>
      let start ← get
      advance 2
      let i ← interpolation text
      blanks text
      match ← peek text with
      | some '}' =>
        advance 1
        return .interpolation i :: (← atomsIn text turns)
      | some c => throw (.unexpectedChar c (← get))
      | none => throw (.unclosedInterpolation start)
    | c :: _ =>
      advance c.utf8Size
      return .char c :: (← atomsIn text turns)
  | 0 => stuck

/-- An expression. -/
def expr (text : List Char) : Cursor (ParseError Nat) Expr := do
  return Expr.ofPieces (piecesFrom [] (← atomsIn text (text.length + 1)))

end Text.Cursor

/-! ## The parts without arguments -/

section Parts

variable {α : Type} {text cs : List Char} {marks : ParseError Nat → Prop}

theorem reads_blanks (cs : List Char) :
    Reads text marks (Cursor.blanks text) cs (.ok ((), skipBlank cs)) :=
  reads_skipWhile (fun _ _ => rfl) cs

theorem skipBlank_skipBlank (cs : List Char) : skipBlank (skipBlank cs) = skipBlank cs :=
  dropWhile_dropWhile (fun _ => id) cs

theorem reads_unexpected (cs : List Char) :
    Reads text (ParseError.Marks text) (Cursor.unexpected text : Cursor (ParseError Nat) α) cs
      (.error ((unexpected cs).map (offset text))) := by
  rw [Cursor.unexpected]
  refine Reads.peek ?_
  cases cs with
  | nil => exact Reads.throw fun _ _ => trivial
  | cons c cs =>
    refine Reads.get fun n hn => ?_
    simp only [unexpected, ParseError.map, hn.offset_eq]
    exact Reads.throw fun _ _ => ⟨cs, hn⟩

theorem reads_word (cs : List Char) :
    Reads text marks (Cursor.word text) cs (.ok (cs.takeWhile isWord, cs.dropWhile isWord)) := by
  rw [Cursor.word]
  refine Reads.get fun start hstart => ?_
  refine Reads.ok_bind (reads_skipWhile (fun _ => isWord_utf8Size) cs) ?_
  have hpassed : Reads text marks (Cursor.passed text start >>= pure) (cs.dropWhile isWord)
      (.ok (cs.takeWhile isWord, cs.dropWhile isWord)) :=
    Reads.passed (by rwa [List.takeWhile_append_dropWhile]) (Reads.pure _)
  rwa [bind_pure] at hpassed

theorem isBindingChar_utf8Size {c : Char} (h : isBindingChar c = true) : 1 = c.utf8Size := by
  simp only [isBindingChar, Bool.or_eq_true, beq_iff_eq] at h
  rcases h with ((h | rfl) | rfl) | rfl
  · exact isWord_utf8Size h
  · rfl
  · rfl
  · rfl

theorem reads_pathOf (text cs : List Char) {chars : List Char}
    (hmarks : ∀ cause : PathError Nat, cause.Marks chars →
      marks (.invalidBinding (String.ofList chars) cause)) :
    Reads text marks (Cursor.pathOf chars) cs
      (((Path.parse (String.ofList chars)).map (·, cs)).mapError
        (.invalidBinding (String.ofList chars))) := by
  have hrun (n : Nat) : ((Cursor.pathOf chars).run n).run =
      some (((Path.parse (String.ofList chars)).map (·, n)).mapError
        (.invalidBinding (String.ofList chars))) := by
    simp only [Cursor.pathOf, StateT.run, ExceptT.run, ExceptT.mk, Path.parse?_eq, Option.map_some]
  cases hparse : Path.parse (String.ofList chars) with
  | ok path =>
    intro n hn
    rw [hrun, hparse]
    exact ⟨n, rfl, hn⟩
  | error cause =>
    intro n hn
    rw [hrun, hparse]
    have hcause := Path.marks_of_parse hparse
    rw [String.toList_ofList] at hcause
    exact ⟨rfl, hmarks cause hcause⟩

/-- A reference is read from its beginning, though its first word has been passed. -/
theorem reads_binding {start : Nat} (hstart : At text start cs) :
    Reads text (ParseError.Marks text) (Cursor.binding text start) (cs.dropWhile isWord)
      ((Binding.read cs).mapError (·.map (offset text))) := by
  have hrest := dropWhile_dropWhile (p := isWord) (fun _ => isBindingChar_of_isWord) cs
  have hpassed : At text start (cs.takeWhile isBindingChar ++ cs.dropWhile isBindingChar) := by
    rwa [List.takeWhile_append_dropWhile]
  rw [Cursor.binding]
  refine Reads.ok_bind (reads_skipWhile (fun _ => isBindingChar_utf8Size) _) ?_
  rw [hrest]
  refine Reads.passed hpassed ?_
  have hmarks (cause : PathError Nat) (hcause : cause.Marks (cs.takeWhile isBindingChar)) :
      (ParseError.invalidBinding (String.ofList (cs.takeWhile isBindingChar)) cause).Marks
        text := by
    refine ⟨⟨start, cs.dropWhile isBindingChar, ?_⟩, ?_⟩
    · rwa [String.toList_ofList]
    · rwa [String.toList_ofList]
  have hpath := reads_pathOf text (cs.dropWhile isBindingChar) hmarks
  rw [Path.parse, String.toList_ofList] at hpath
  rw [Binding.read]
  cases hhead : Path.parseHead (cs.takeWhile isBindingChar) with
  | ok head =>
    rw [hhead] at hpath
    exact hpath.ok_bind (Reads.pure _)
  | error cause =>
    rw [hhead] at hpath
    exact hpath.error_bind

/-- A string behind its opening apostrophe. -/
theorem reads_quotedIn {start : Nat} (hstart : ∃ rest, At text start ('\'' :: rest))
    (cs : List Char) {turns : Nat} (hturns : cs.length ≤ turns) :
    Reads text (ParseError.Marks text) (Cursor.quotedIn text start (turns + 1)) cs
      ((readQuoted cs).elim (.error (.unclosedString start)) .ok) := by
  fun_induction readQuoted cs generalizing turns with
  | case1 =>
    rw [Cursor.quotedIn]
    exact Reads.peek (Reads.throw fun _ _ => hstart)
  | case2 cs =>
    rw [Cursor.quotedIn]
    exact Reads.peek (Reads.advance rfl (Reads.pure []))
  | case3 cs ih =>
    obtain ⟨left, rfl, hleft⟩ := exists_turn (Nat.lt_of_succ_lt hturns)
    rw [Cursor.quotedIn]
    refine Reads.peek (Reads.advance rfl (Reads.peek (Reads.advance rfl ?_)))
    have hmap := (ih hleft).map ('\'' :: ·)
    cases hq : readQuoted cs <;> rwa [hq] at hmap
  | case4 cs ih =>
    obtain ⟨left, rfl, hleft⟩ := exists_turn (Nat.lt_of_succ_lt hturns)
    rw [Cursor.quotedIn]
    refine Reads.peek (Reads.advance rfl (Reads.peek (Reads.advance rfl ?_)))
    have hmap := (ih hleft).map ('\\' :: ·)
    cases hq : readQuoted cs <;> rwa [hq] at hmap
  | case5 c cs hquote hescaped hslash ih =>
    obtain ⟨left, rfl, hleft⟩ := exists_turn hturns
    have hmap := (ih hleft).map (c :: ·)
    have hgoal : Reads text (ParseError.Marks text)
        (Cursor.quotedIn text start (left + 1) >>= fun s => pure (c :: s)) cs
        (((readQuoted cs).map fun r => (c :: r.1, r.2)).elim (.error (.unclosedString start))
          .ok) := by
      cases hq : readQuoted cs <;> rwa [hq] at hmap
    rw [Cursor.quotedIn]
    refine Reads.peek (Reads.advance rfl ?_)
    rw [if_neg hquote]
    by_cases hc : c = '\\'
    · subst hc
      rw [if_pos rfl]
      refine Reads.peek ?_
      split
      · rename_i hhead
        exact absurd hhead (head?_ne_some fun ds => hescaped ds rfl)
      · rename_i hhead
        exact absurd hhead (head?_ne_some fun ds => hslash ds rfl)
      · exact hgoal
    · rw [if_neg hc]
      exact hgoal

theorem reads_quoted (text cs : List Char) :
    Reads text (ParseError.Marks text) (Cursor.quoted text) ('\'' :: cs)
      ((readQuoted cs).elim (.error (.unclosedString (offset text ('\'' :: cs)))) .ok) := by
  rw [Cursor.quoted]
  refine Reads.get fun start hstart => Reads.advance rfl ?_
  rw [hstart.offset_eq]
  exact Reads.in_turns fun _ => reads_quotedIn ⟨cs, hstart⟩ cs

/-! ## Numbers -/

/-- The text behind its first character, if that belongs to the class. -/
def dropOne (p : Char → Bool) : List Char → List Char
  | [] => []
  | c :: cs => if p c then cs else c :: cs

theorem reads_skipOne {p : Char → Bool} (hp : ∀ c, p c = true → 1 = c.utf8Size) (cs : List Char) :
    Reads text marks (Cursor.skipOne text p) cs (.ok ((), dropOne p cs)) := by
  rw [Cursor.skipOne]
  refine Reads.peek ?_
  cases cs with
  | nil => exact Reads.pure ()
  | cons c cs =>
    simp only [List.head?_cons, dropOne]
    by_cases hc : p c = true
    · rw [if_pos hc, if_pos hc, ← bind_pure (Cursor.advance 1)]
      exact Reads.advance (hp c hc) (Reads.pure ())
    · rw [if_neg hc, if_neg hc]
      exact Reads.pure ()

theorem isMantissaChar_utf8Size {c : Char} (h : isMantissaChar c = true) : 1 = c.utf8Size := by
  simp only [isMantissaChar, Bool.or_eq_true, beq_iff_eq] at h
  rcases h with h | rfl
  · exact isDigit_utf8Size h
  · rfl

theorem sign_utf8Size {c : Char} (h : (c == '+' || c == '-') = true) : 1 = c.utf8Size := by
  simp only [Bool.or_eq_true, beq_iff_eq] at h
  rcases h with rfl | rfl <;> rfl

theorem spanExponent_cons {c : Char} (hc : c = 'e' ∨ c = 'E') (cs : List Char) :
    (spanExponent (c :: cs)).2 =
      (dropOne (fun c => c == '+' || c == '-') cs).dropWhile Char.isDigit := by
  rw [spanExponent.eq_def]
  simp only [if_pos hc]
  cases cs with
  | nil => rfl
  | cons s ds =>
    simp only [dropOne, Bool.or_eq_true, beq_iff_eq]
    split <;> rfl

theorem reads_exponent (cs : List Char) :
    Reads text marks (Cursor.exponent text) cs (.ok ((), (spanExponent cs).2)) := by
  rw [Cursor.exponent]
  refine Reads.peek ?_
  cases cs with
  | nil => exact Reads.pure ()
  | cons c cs =>
    simp only [List.head?_cons]
    by_cases hc : c = 'e' ∨ c = 'E'
    · have hsize : 1 = c.utf8Size := by
        rcases hc with rfl | rfl <;> rfl
      rw [if_pos hc, spanExponent_cons hc]
      exact Reads.advance hsize (Reads.ok_bind (reads_skipOne (fun _ => sign_utf8Size) cs)
        (reads_skipWhile (fun _ => isDigit_utf8Size) _))
    · rw [if_neg hc, spanExponent.eq_def]
      simp only [if_neg hc]
      exact Reads.pure ()

theorem spanNumber_snd (cs : List Char) :
    (spanNumber cs).2 = (spanExponent ((dropOne (· == '-') cs).dropWhile isMantissaChar)).2 := by
  unfold spanNumber
  split
  · rfl
  · rename_i hminus
    cases cs with
    | nil => rfl
    | cons c cs =>
      have hc : ¬ (c == '-') = true := fun h => hminus cs (by rw [beq_iff_eq.mp h])
      rw [dropOne, if_neg hc]
      rfl

theorem reads_number (text cs : List Char) :
    Reads text (ParseError.Marks text) (Cursor.number text) cs
      ((readNumber cs).mapError (·.map (offset text))) := by
  rw [Cursor.number]
  refine Reads.get fun start hstart => ?_
  refine Reads.ok_bind (reads_skipOne (fun c hc => by rw [beq_iff_eq.mp hc]; rfl) cs) ?_
  refine Reads.ok_bind (reads_skipWhile (fun _ => isMantissaChar_utf8Size) _) ?_
  refine Reads.ok_bind (reads_exponent _) ?_
  have hat : At text start ((spanNumber cs).1 ++ (spanNumber cs).2) := by
    rwa [spanNumber_append]
  have hmarks : (ParseError.invalidNumber (String.ofList (spanNumber cs).1)).Marks text := by
    refine ⟨start, (spanNumber cs).2, ?_⟩
    rwa [String.toList_ofList]
  rw [← spanNumber_snd]
  refine Reads.passed hat (Reads.peek ?_)
  simp only [readNumber]
  split
  · exact Reads.throw fun _ _ => hmarks
  · cases numberValue? (spanNumber cs).1 with
    | some v => exact Reads.pure v
    | none => exact Reads.throw fun _ _ => hmarks

end Parts

/-! ## Calls and their arguments -/

section Calls

variable {text : List Char}

/-- What a reader gives, with the place of a fault by offset. -/
def located {α : Type} (text : List Char) {cs : List Char} (r : Except Fault (Taken α cs)) :
    Except (ParseError Nat) (α × List Char) :=
  (r.map fun t => (t.value, t.rest)).mapError (·.map (offset text))

theorem located_eq {α : Type} {cs : List Char} (r : Except Fault (Taken α cs)) :
    located text r = (outcome r).mapError (·.map (offset text)) := rfl

theorem mapError_map {ε ε' α β : Type} (r : Except ε α) (f : α → β) (g : ε → ε') :
    (r.map f).mapError g = (r.mapError g).map f := by
  cases r <;> rfl

theorem reads_constant {cs : List Char} {start : Nat} (hstart : At text start cs) :
    Reads text (ParseError.Marks text) (Cursor.constant text start (cs.takeWhile isWord))
      (cs.dropWhile isWord)
      (((constant? (cs.takeWhile isWord) (cs.dropWhile isWord)).elim
        ((Binding.read cs).map fun t => (.binding t.1, t.2))
        fun v => .ok (.literal v, cs.dropWhile isWord)).mapError (·.map (offset text))) := by
  have hbinding := (reads_binding hstart).map Arg.binding
  rw [← mapError_map] at hbinding
  rw [Cursor.constant]
  refine Reads.peek ?_
  generalize cs.dropWhile isWord = rest at hbinding ⊢
  split
  · rename_i hhead
    obtain ⟨es, rfl⟩ := List.head?_eq_some_iff.mp hhead
    exact hbinding
  · rename_i hhead
    obtain ⟨es, rfl⟩ := List.head?_eq_some_iff.mp hhead
    exact hbinding
  · rename_i hdot hbracket
    have hkeyword : constant? (cs.takeWhile isWord) rest = keyword? (cs.takeWhile isWord) := by
      unfold constant?
      split
      · exact absurd rfl hdot
      · exact absurd rfl hbracket
      · rfl
    rw [hkeyword]
    cases keyword? (cs.takeWhile isWord) with
    | some v => exact Reads.pure _
    | none => exact hbinding

theorem reads_call_of_not {cs name : List Char} {arguments : Cursor (ParseError Nat) (List Arg)}
    (hname : ¬ isOperationName (String.ofList name) = true)
    (hmarks : ∃ n rest, At text n (name ++ '(' :: rest)) :
    Reads text (ParseError.Marks text) (Cursor.callWith text arguments name) cs
      (.error (.invalidOperationName (String.ofList name))) := by
  rw [Cursor.callWith, if_neg hname]
  refine Reads.throw fun _ _ => ?_
  rwa [ParseError.Marks, String.toList_ofList]

/-- A word before a parenthesis is a call, if its arguments are read. -/
theorem reads_called {α : Type} {name es : List Char} {f : String → List Arg → α} {n : Nat}
    {arguments : Cursor (ParseError Nat) (List Arg)} (hat : At text n (name ++ '(' :: es))
    (hcall : isOperationName (String.ofList name) = true → Reads text (ParseError.Marks text)
      (Cursor.callWith text arguments name) ('(' :: es) (located text (Arg.readArgs es))) :
    Reads text (ParseError.Marks text)
      (Cursor.callWith text arguments name >>= fun args => pure (f (String.ofList name) args))
      ('(' :: es) ((called name es f).mapError (·.map (offset text))) := by
  unfold called
  split
  · rename_i hname
    rw [mapError_map]
    exact (hcall hname).map _
  · rename_i hname
    exact (reads_call_of_not hname ⟨n, es, hat⟩).error_bind

mutual

theorem reads_argument (cs : List Char) {bs : List Char} (hbs : skipBlank bs = skipBlank cs)
    {turns : Nat} (hturns : cs.length ≤ turns) :
    Reads text (ParseError.Marks text) (Cursor.argumentWith text (Cursor.argumentsIn text turns)) bs
      (located text (Arg.read cs)) := by
  rw [Cursor.argumentWith, located_eq]
  refine Reads.ok_bind (reads_blanks bs) (Reads.peek ?_)
  rw [hbs]
  cases hcs : skipBlank cs with
  | nil =>
    rw [Arg.outcome_read_nil hcs]
    exact reads_unexpected []
  | cons c ds =>
    simp only [List.head?_cons]
    split
    · rename_i hquote
      obtain rfl := Option.some.inj hquote
      rw [Arg.outcome_read_quote hcs]
      have hquoted := (reads_quoted text ds).map fun s => Arg.literal (.string (String.ofList s))
      cases hq : readQuoted ds <;> rwa [hq] at hquoted
    · rename_i d hquote hd
      obtain rfl := Option.some.inj hd
      by_cases hnumber : c = '-' ∨ c.isDigit = true
      · rw [if_pos hnumber, Arg.outcome_read_cons hcs hquote, if_pos hnumber, mapError_map]
        exact (reads_number text (c :: ds)).map Arg.literal
      rw [if_neg hnumber]
      by_cases hc : isWord c = true
      · have hword := isWordStart_of_isWord hc fun hd => hnumber (.inr hd)
        rw [if_pos hc]
        refine Reads.get fun start hstart => Reads.ok_bind (reads_word (c :: ds)) (Reads.peek ?_)
        split
        · rename_i hhead
          obtain ⟨es, hes⟩ := List.head?_eq_some_iff.mp hhead
          rw [Arg.outcome_read_call hcs hword hes, hes]
          rw [← List.takeWhile_append_dropWhile (p := isWord) (l := c :: ds), hes] at hstart
          refine reads_called hstart fun hname => ?_
          have hlt := length_lt_of_call hcs hc hes
          obtain ⟨left, rfl, hleft⟩ := exists_turn (Nat.lt_of_lt_of_le hlt hturns)
          exact reads_call es hname hleft
        · rename_i hparen
          rw [Arg.outcome_read_word hcs hword fun es hes => hparen (by rw [hes]; rfl)]
          exact reads_constant hstart
      · rw [if_neg hc, Arg.outcome_read_cons hcs hquote, if_neg hnumber, if_neg hc]
        exact reads_unexpected (c :: ds)
    · rename_i hnone
      cases hnone
termination_by (cs.length, 0)

theorem reads_call (cs : List Char) {name : List Char}
    (hname : isOperationName (String.ofList name) = true) {turns : Nat}
    (hturns : cs.length ≤ turns) :
    Reads text (ParseError.Marks text)
      (Cursor.callWith text (Cursor.argumentsIn text (turns + 1)) name) ('(' :: cs)
      (located text (Arg.readArgs cs)) := by
  rw [Cursor.callWith, if_pos hname, located_eq]
  refine Reads.advance rfl (Reads.ok_bind (reads_blanks cs) (Reads.peek ?_))
  split
  · rename_i hhead
    obtain ⟨rest, hclose⟩ := List.head?_eq_some_iff.mp hhead
    rw [hclose, Arg.outcome_readArgs_close hclose]
    exact Reads.advance rfl (Reads.pure [])
  · rename_i hclose
    rw [Arg.outcome_readArgs_more fun ds hds => hclose (by rw [hds]; rfl)]
    exact reads_arguments cs (skipBlank_skipBlank cs) hturns
termination_by (cs.length, 2)

theorem reads_arguments (cs : List Char) {bs : List Char} (hbs : skipBlank bs = skipBlank cs)
    {turns : Nat} (hturns : cs.length ≤ turns) :
    Reads text (ParseError.Marks text) (Cursor.argumentsIn text (turns + 1)) bs
      (located text (Arg.readMore cs)) := by
  have hfirst := reads_argument cs hbs hturns
  rw [Cursor.argumentsIn, located_eq, Arg.outcome_readMore]
  rw [located_eq] at hfirst
  cases ha : outcome (Arg.read cs) with
  | error e =>
    rw [ha] at hfirst
    exact hfirst.error_bind
  | ok a =>
    rw [ha] at hfirst
    refine Reads.ok_bind hfirst (Reads.ok_bind (reads_blanks a.2) (Reads.peek ?_))
    simp only [Except.bind]
    split
    · rename_i hhead
      obtain ⟨rest, hcomma⟩ := List.head?_eq_some_iff.mp hhead
      have hlt := (length_lt_of_dropWhile_eq hcomma).trans (gives_iff.mpr ha).shorter
      obtain ⟨left, rfl, hleft⟩ := exists_turn (Nat.lt_of_lt_of_le hlt hturns)
      have hmore := (reads_arguments rest rfl hleft).map (a.1 :: ·)
      rw [located_eq, ← mapError_map] at hmore
      rw [hcomma]
      exact Reads.advance rfl hmore
    · rename_i hhead
      obtain ⟨rest, hclose⟩ := List.head?_eq_some_iff.mp hhead
      rw [hclose]
      exact Reads.advance rfl (Reads.pure [a.1])
    · rename_i hcomma hclose
      split
      · rename_i rest hds
        exact absurd (by rw [hds]; rfl) hclose
      · rename_i rest hds
        exact absurd (by rw [hds]; rfl) hcomma
      · exact reads_unexpected _
termination_by (cs.length, 1)

end

theorem reads_interpolation (text cs : List Char) :
    Reads text (ParseError.Marks text) (Cursor.interpolation text) cs
      (located text (Interpolation.read cs)) := by
  rw [Cursor.interpolation, located_eq, Interpolation.outcome_read]
  refine Reads.ok_bind (reads_blanks cs) (Reads.get fun start hstart => ?_)
  refine Reads.ok_bind (reads_word (skipBlank cs)) ?_
  have hsplit := List.takeWhile_append_dropWhile (p := isWord) (l := skipBlank cs)
  split
  · rename_i hempty
    rw [hempty, List.nil_append] at hsplit
    rw [hsplit]
    exact reads_unexpected _
  · refine Reads.peek ?_
    split
    · rename_i hhead
      obtain ⟨es, hes⟩ := List.head?_eq_some_iff.mp hhead
      rw [hes] at hsplit ⊢
      refine reads_called (hsplit.symm ▸ hstart) fun hname => reads_call es hname ?_
      exact (Nat.le_of_lt (length_lt_of_dropWhile_eq hes)).trans hstart.length_le
    · rename_i hparen
      have hbinding := (reads_binding hstart).map Interpolation.binding
      rw [← mapError_map] at hbinding
      split
      · rename_i es hes
        exact absurd (by rw [hes]; rfl) hparen
      · exact hbinding

end Calls

/-! ## Texts -/

section Texts

variable {text : List Char}

/-- An interpolation, and the blanks behind it. -/
theorem reads_opened {cs : List Char} {i : Taken Interpolation cs} {α : Type}
    {f : Nat → Interpolation → Option Char → Cursor (ParseError Nat) α}
    {result : Except (ParseError Nat) (α × List Char)} (hi : Interpolation.read cs = .ok i)
    (hf : ∀ start, At text start ('@' :: '{' :: cs) → Reads text (ParseError.Marks text)
      (f start i.value (skipBlank i.rest).head?) (skipBlank i.rest) result) :
    Reads text (ParseError.Marks text) (do
      let start ← get
      Cursor.advance 2
      let i ← Cursor.interpolation text
      Cursor.blanks text
      f start i (← Cursor.peek text)) ('@' :: '{' :: cs) result := by
  have hread := reads_interpolation text cs
  rw [hi] at hread
  refine Reads.get fun start hstart => ?_
  refine Reads.advance_append ['@', '{'] rfl (hread.ok_bind ?_)
  exact Reads.ok_bind (reads_blanks i.rest) (Reads.peek (hf start hstart))

theorem reads_atomsIn (cs : List Char) {turns : Nat} (hturns : cs.length ≤ turns) :
    Reads text (ParseError.Marks text) (Cursor.atomsIn text (turns + 1)) cs
      (((readAtoms cs).mapError (·.map (offset text))).map (·, [])) := by
  fun_induction readAtoms cs generalizing turns with
  | case1 =>
    rw [Cursor.atomsIn]
    exact Reads.left (Reads.pure [])
  | case2 cs ih =>
    obtain ⟨left, rfl, hleft⟩ := exists_turn (Nat.lt_of_succ_lt hturns)
    rw [Cursor.atomsIn, mapError_map_map]
    exact Reads.left (Reads.advance_append ['\\', '\\'] rfl ((ih hleft).map _))
  | case3 cs ih =>
    obtain ⟨left, rfl, hleft⟩ := exists_turn (Nat.lt_of_succ_lt (Nat.lt_of_succ_lt hturns))
    rw [Cursor.atomsIn, mapError_map_map]
    exact Reads.left (Reads.advance_append ['\\', '@', '{'] rfl ((ih hleft).map _))
  | case4 cs e he =>
    have hi := reads_interpolation text cs
    rw [he] at hi
    rw [Cursor.atomsIn]
    refine Reads.left (Reads.get fun start hstart => ?_)
    exact Reads.advance_append ['@', '{'] rfl hi.error_bind
  | case5 cs i hi rest hrest ih =>
    have hlength := length_skipBlank_le i.rest
    rw [hrest, List.length_cons] at hlength
    have hshorter := hlength.trans_lt i.shorter
    obtain ⟨left, rfl, hleft⟩ := exists_turn (show rest.length < turns by
      simp only [List.length_cons] at hturns
      omega)
    rw [Cursor.atomsIn, mapError_map_map]
    refine Reads.left (reads_opened hi fun start hstart => ?_)
    rw [hrest]
    exact Reads.advance rfl ((ih hleft).map _)
  | case6 cs i hi c rest hc hrest =>
    rw [Cursor.atomsIn]
    refine Reads.left (reads_opened hi fun start hstart => ?_)
    rw [hrest]
    simp only [List.head?_cons]
    refine Reads.get fun n hn => ?_
    simp only [Except.mapError, Except.map, ParseError.map, hn.offset_eq]
    exact Reads.throw fun _ _ => ⟨rest, hn⟩
  | case7 cs i hi hrest =>
    rw [Cursor.atomsIn]
    refine Reads.left (reads_opened hi fun start hstart => ?_)
    rw [hrest]
    simp only [Except.mapError, Except.map, ParseError.map, hstart.offset_eq]
    exact Reads.throw fun _ _ => ⟨cs, hstart⟩
  | case8 c cs hslash hescape hbrace ih =>
    obtain ⟨left, rfl, hleft⟩ := exists_turn hturns
    rw [Cursor.atomsIn, mapError_map_map]
    refine Reads.left ?_
    split
    · rename_i hnil
      cases hnil
    · rename_i ds heq
      obtain ⟨rfl, rfl⟩ := List.cons.inj heq
      exact (hslash ds rfl rfl).elim
    · rename_i ds heq
      obtain ⟨rfl, rfl⟩ := List.cons.inj heq
      exact (hescape ds rfl rfl).elim
    · rename_i ds heq
      obtain ⟨rfl, rfl⟩ := List.cons.inj heq
      exact (hbrace ds rfl rfl).elim
    · rename_i heq
      obtain ⟨rfl, rfl⟩ := List.cons.inj heq
      exact Reads.advance rfl ((ih hleft).map _)

theorem reads_expr (text : List Char) :
    Reads text (ParseError.Marks text) (Cursor.expr text) text
      ((((readAtoms text).map fun as => Expr.ofPieces (piecesFrom [] as)).mapError
        (·.map (offset text))).map (·, [])) := by
  rw [Cursor.expr, mapError_map_map]
  exact (Reads.in_turns fun _ => reads_atomsIn text).map _

end Texts

namespace Expr

/-- The expression that a text spells. -/
def parse? (s : String) : Option (Except (ParseError Nat) Expr) :=
  (Cursor.expr s.toList).fromStart

theorem parse?_eq (s : String) : parse? s = some (parse s) := by
  rw [parse?, (reads_expr s.toList).fromStart.1, parse]
  cases readAtoms s.toList <;> rfl

/-- The fault of a text that spells no expression is about what stands at its offset. -/
theorem marks_of_parse {s : String} {e : ParseError Nat} (h : parse s = .error e) :
    e.Marks s.toList := by
  refine (reads_expr s.toList).fromStart.2 e ?_
  rw [parse] at h
  rw [h]
  rfl

/-- **Reading is safe and its faults are in place.** Reading an expression or a path by offset
slices the text between its characters only and ends within a turn for each character and one more,
with what `Expr.parse` and `Path.parse` give; a fault is about what stands at its offset, and the
offset lies at a boundary of the text. -/
theorem parse?_eq_parse (s : String) :
    (parse? s = some (parse s) ∧ Path.parse? s = some (Path.parse s)) ∧
    (∀ e, parse s = .error e → e.Marks s.toList ∧ e.InText s) ∧
    (∀ e, Path.parse s = .error e → e.Marks s.toList ∧ e.InText s) := by
  refine ⟨⟨parse?_eq s, Path.parse?_eq s⟩, fun e he => ?_, fun e he => ?_⟩
  · have hmarks := marks_of_parse he
    exact ⟨hmarks, hmarks.inText⟩
  · have hmarks := Path.marks_of_parse he
    exact ⟨hmarks, hmarks.inText⟩

/-- Behind two characters of more than one byte, the offset of an apostrophe that is not closed, and
of a character that belongs to no path. -/
theorem parse?_eq_parse_of_wide :
    parse "é@\x7bf('ü" = .error (.unclosedString 6) ∧
    Path.parse "a[1]é" = .error (.unexpectedChar 'é' 4) ∧
    (∃ rest, At "é@\x7bf('ü".toList 6 ('\'' :: rest)) ∧ Boundary "é@\x7bf('ü" 6 ∧
    (∃ rest, At "a[1]é".toList 4 ('é' :: rest)) ∧ Boundary "a[1]é" 4 := by
  have hquote : parse "é@\x7bf('ü" = .error (.unclosedString 6) := by cbv
  have hpath : Path.parse "a[1]é" = .error (.unexpectedChar 'é' 4) := by cbv
  obtain ⟨hquoteMarks, hquoteIn⟩ := (parse?_eq_parse _).2.1 _ hquote
  obtain ⟨hpathMarks, hpathIn⟩ := (parse?_eq_parse _).2.2 _ hpath
  exact ⟨hquote, hpath, hquoteMarks, hquoteIn, hpathMarks, hpathIn⟩

end Expr

end DataBinding
