import DataBinding.Decimal.Reader
import DataBinding.Expr
import DataBinding.Number
import DataBinding.Operation.Name
import DataBinding.Path.Reader
import DataBinding.Text.Blank
import DataBinding.Text.Taken

/-!
# Reading expressions

```text
raw        (character, or one of the escapes \\ and \@{, or @{ interpolation })*
interpolation   call, or binding
call       name ( arguments, separated by commas )
argument   string, number, true, false, null, call, or binding
binding    identifier, then .key or [index] any number of times
string     ' characters with the escapes \' and \\ '
number     optional minus, digits, optional fraction, optional exponent
```

Blanks may stand around the parts of an interpolation. In a text a backslash that escapes nothing
stands for itself.

* `Expr.parse`: the expression that a text spells, or the first fault.
* `Interpolation.read`, `Arg.read`: one interpolation or argument, and the text behind it.
* `Binding.read_shorter`, `readQuoted_shorter`, `readNumber_shorter`: each part uses up text.

In the interface: `try_parse`.
-/

namespace DataBinding

open Text

/-- What keeps a text from being an expression. While the text is read, a place `Pos` in it is the
text left there; afterwards it is an offset. -/
inductive ParseError (Pos : Type) where
  | unclosedInterpolation (pos : Pos)
  | unexpectedChar (c : Char) (pos : Pos)
  | unexpectedEnd
  | unclosedString (pos : Pos)
  | invalidNumber (text : String)
  | invalidOperationName (name : String)
  /-- The text of a binding is no path; the place of the cause is counted from the binding. -/
  | invalidBinding (text : String) (cause : PathError Nat)
  deriving Repr, DecidableEq

namespace ParseError

/-- The fault with its place given in another way. -/
def map {α β : Type} (f : α → β) : ParseError α → ParseError β
  | .unclosedInterpolation pos => .unclosedInterpolation (f pos)
  | .unexpectedChar c pos => .unexpectedChar c (f pos)
  | .unexpectedEnd => .unexpectedEnd
  | .unclosedString pos => .unclosedString (f pos)
  | .invalidNumber text => .invalidNumber text
  | .invalidOperationName name => .invalidOperationName name
  | .invalidBinding text cause => .invalidBinding text cause

/-- The fault in words. -/
def message : ParseError Nat → String
  | .unclosedInterpolation n => s!"unclosed interpolation starting at offset {n}"
  | .unexpectedChar c n => s!"unexpected character {quoteChar c} at offset {n}"
  | .unexpectedEnd => "unexpected end of input"
  | .unclosedString n => s!"unclosed string literal starting at offset {n}"
  | .invalidNumber text => s!"invalid number literal {quote text}"
  | .invalidOperationName name => s!"invalid operation name {quote name}"
  | .invalidBinding text cause => s!"invalid binding {quote text}: {cause.message}"

end ParseError

/-- A fault found while reading. -/
abbrev Fault := ParseError (List Char)

/-- The fault of text that cannot stand where it does, or of missing text. -/
def unexpected : List Char → Fault
  | [] => .unexpectedEnd
  | c :: cs => .unexpectedChar c (c :: cs)

/-! ## The parts without arguments -/

/-- A character of the text of a binding. -/
def isBindingChar (c : Char) : Bool :=
  isWord c || c == '.' || c == '[' || c == ']'

/-- The binding that the front of the text spells: as much as can belong to one. -/
def Binding.read (cs : List Char) : Except Fault (Binding × List Char) :=
  match Path.parseHead (cs.takeWhile isBindingChar) with
  | .ok (context, path) => .ok (⟨context, path⟩, cs.dropWhile isBindingChar)
  | .error cause => .error (.invalidBinding (String.ofList (cs.takeWhile isBindingChar)) cause)

/-- Reads a string up to its closing apostrophe, `none` if there is none. -/
def readQuoted : List Char → Option (List Char × List Char)
  | [] => none
  | '\'' :: cs => some ([], cs)
  | '\\' :: '\'' :: cs => (readQuoted cs).map fun r => ('\'' :: r.1, r.2)
  | '\\' :: '\\' :: cs => (readQuoted cs).map fun r => ('\\' :: r.1, r.2)
  | c :: cs => (readQuoted cs).map fun r => (c :: r.1, r.2)

/-- The exponent that the text begins with: `e` or `E`, an optional sign, and digits, of which
there may be none. -/
def spanExponent : List Char → List Char × List Char
  | c :: cs =>
    if c = 'e' ∨ c = 'E' then
      match cs with
      | s :: ds =>
        if s = '+' ∨ s = '-' then
          (c :: s :: ds.takeWhile Char.isDigit, ds.dropWhile Char.isDigit)
        else (c :: cs.takeWhile Char.isDigit, cs.dropWhile Char.isDigit)
      | [] => ([c], [])
    else ([], c :: cs)
  | [] => ([], [])

/-- Digits and points. -/
def isMantissaChar (c : Char) : Bool :=
  c.isDigit || c == '.'

/-- The text that the front of an unsigned number takes up. -/
def spanUnsigned (cs : List Char) : List Char × List Char :=
  let (exponent, rest) := spanExponent (cs.dropWhile isMantissaChar)
  (cs.takeWhile isMantissaChar ++ exponent, rest)

/-- The text that a number takes up, and the text behind it. -/
def spanNumber : List Char → List Char × List Char
  | '-' :: cs =>
    let (text, rest) := spanUnsigned cs
    ('-' :: text, rest)
  | cs => spanUnsigned cs

/-- A character that makes a number a double. -/
def isDoubleMark (c : Char) : Bool :=
  c == '.' || c == 'e' || c == 'E'

/-- A character that cannot end a number. -/
def isOpenEnd (c : Char) : Bool :=
  isDoubleMark c || c == '+' || c == '-'

/-- The value that the text of a number spells. -/
def numberValue? (text : List Char) : Option Value :=
  if text.any isDoubleMark then
    match readFloat? text with
    | some x => if x.isFinite && !(text.getLast?.any isOpenEnd) then some (.double x) else none
    | none => none
  else ((readInt? text).bind toInt64?).map .int

/-- The number that the front of the text spells. No word may follow it directly. -/
def readNumber (cs : List Char) : Except Fault (Value × List Char) :=
  let (text, rest) := spanNumber cs
  if rest.head?.any isWord then .error (.invalidNumber (String.ofList text))
  else
    match numberValue? text with
    | some v => .ok (v, rest)
    | none => .error (.invalidNumber (String.ofList text))

/-- The constant that a word names by itself. -/
def keyword? : List Char → Option Value
  | ['t', 'r', 'u', 'e'] => some (.bool true)
  | ['f', 'a', 'l', 's', 'e'] => some (.bool false)
  | ['n', 'u', 'l', 'l'] => some .null
  | _ => none

/-- The constant that a word names when `rest` follows it. A word that begins a path names none. -/
def constant? (word rest : List Char) : Option Value :=
  match rest with
  | '.' :: _ => none
  | '[' :: _ => none
  | _ => keyword? word

/-! ## Every part uses up text -/

theorem length_lt_of_dropWhile_eq {α : Type} {p : α → Bool} {c : α} {cs rest : List α}
    (h : cs.dropWhile p = c :: rest) : rest.length < cs.length := by
  have := (List.dropWhile_suffix (l := cs) p).length_le
  rw [h, List.length_cons] at this
  exact this

theorem length_dropWhile_le {α : Type} (p : α → Bool) (cs : List α) :
    (cs.dropWhile p).length ≤ cs.length :=
  (List.dropWhile_suffix p).length_le

theorem length_dropWhile_lt {α : Type} {p : α → Bool} {c : α} (h : p c = true) (cs : List α) :
    ((c :: cs).dropWhile p).length < (c :: cs).length := by
  have := length_dropWhile_le p cs
  simp [h]
  omega

theorem Binding.read_shorter {cs rest : List Char} {b : Binding}
    (h : Binding.read cs = .ok (b, rest)) : rest.length < cs.length := by
  unfold Binding.read at h
  cases cs with
  | nil => cases h
  | cons c cs =>
    by_cases hc : isBindingChar c = true
    · split at h
      · obtain ⟨_, rfl⟩ := Prod.mk.inj (Except.ok.inj h)
        exact length_dropWhile_lt hc cs
      · cases h
    · rw [List.takeWhile_cons_of_neg hc] at h
      cases h

theorem readQuoted_shorter {cs s rest : List Char} (h : readQuoted cs = some (s, rest)) :
    rest.length < cs.length := by
  fun_induction readQuoted cs generalizing s rest
  case case1 => cases h
  case case2 =>
    obtain ⟨_, rfl⟩ := Prod.mk.inj (Option.some.inj h)
    simp
  all_goals
    rename_i ih
    simp only [Option.map_eq_some_iff, Prod.mk.injEq, Prod.exists] at h
    obtain ⟨_, _, h, _, rfl⟩ := h
    have := ih h
    simp only [List.length_cons]
    omega

theorem spanExponent_append (cs : List Char) : (spanExponent cs).1 ++ (spanExponent cs).2 = cs := by
  unfold spanExponent
  split
  · split
    · split
      · split <;> simp [List.takeWhile_append_dropWhile]
      · rfl
    · rfl
  · rfl

theorem spanUnsigned_append (cs : List Char) : (spanUnsigned cs).1 ++ (spanUnsigned cs).2 = cs := by
  simp [spanUnsigned, spanExponent_append, List.takeWhile_append_dropWhile]

/-- A number's text and the text behind it make up the whole. -/
theorem spanNumber_append (cs : List Char) : (spanNumber cs).1 ++ (spanNumber cs).2 = cs := by
  unfold spanNumber
  split <;> simp [spanUnsigned_append]

theorem numberValue?_nil : numberValue? [] = none := by
  simp [numberValue?, readInt?, readNat?, splitSign]

theorem readNumber_shorter {cs rest : List Char} {v : Value}
    (h : readNumber cs = .ok (v, rest)) : rest.length < cs.length := by
  have happ := congrArg List.length (spanNumber_append cs)
  rw [List.length_append] at happ
  simp only [readNumber] at h
  split at h
  · cases h
  · split at h
    · rename_i hv
      obtain ⟨_, rfl⟩ := Prod.mk.inj (Except.ok.inj h)
      have : (spanNumber cs).1 ≠ [] := by
        intro hn
        rw [hn, numberValue?_nil] at hv
        cases hv
      have := List.length_pos_iff.mpr this
      omega
    · cases h

/-! ## Calls and their arguments -/

mutual

/-- One argument. A word that begins with a digit is a number. -/
def Arg.read (cs : List Char) : Except Fault (Taken Arg cs) :=
  match hcs : skipBlank cs with
  | [] => .error .unexpectedEnd
  | '\'' :: ds =>
    match h : readQuoted ds with
    | none => .error (.unclosedString ('\'' :: ds))
    | some (s, rest) => .ok ⟨.literal (.string (String.ofList s)), rest, by
        have h1 := length_skipBlank_le cs
        have h2 := readQuoted_shorter h
        simp only [hcs, List.length_cons] at h1
        omega⟩
  | c :: ds =>
    if c = '-' ∨ c.isDigit then
      match h : readNumber (c :: ds) with
      | .error e => .error e
      | .ok (v, rest) => .ok ⟨.literal v, rest, by
          have h1 := length_skipBlank_le cs
          have h2 := readNumber_shorter h
          rw [hcs] at h1
          omega⟩
    else if hc : isWord c then
      have hdrop : ((c :: ds).dropWhile isWord).length < cs.length := by
        have h1 := length_skipBlank_le cs
        have h2 := length_dropWhile_lt hc ds
        rw [hcs] at h1
        omega
      match h : (c :: ds).dropWhile isWord with
      | '(' :: es =>
        let name := String.ofList ((c :: ds).takeWhile isWord)
        if isOperationName name then
          match Arg.readArgs es with
          | .error e => .error e
          | .ok args =>
            .ok ((args.map (.call name)).within (by simp only [h, List.length_cons] at hdrop; omega))
        else .error (.invalidOperationName name)
      | rest =>
        match constant? ((c :: ds).takeWhile isWord) rest with
        | some v => .ok ⟨.literal v, rest, by rw [← h]; exact hdrop⟩
        | none =>
          match hb : Binding.read (c :: ds) with
          | .error e => .error e
          | .ok (b, rest) => .ok ⟨.binding b, rest, by
              have h1 := length_skipBlank_le cs
              have h2 := Binding.read_shorter hb
              rw [hcs] at h1
              omega⟩
    else .error (.unexpectedChar c (c :: ds))
termination_by (cs.length, 0)
decreasing_by
  rw [h] at hdrop
  simp only [List.length_cons] at hdrop
  simp [Prod.lex_def]; omega

/-- The arguments behind an opening parenthesis, and the closing one. -/
def Arg.readArgs (cs : List Char) : Except Fault (Taken (List Arg) cs) :=
  match h : skipBlank cs with
  | ')' :: rest => .ok ⟨[], rest, by
      have := length_skipBlank_le cs
      simp only [h, List.length_cons] at this
      omega⟩
  | _ => Arg.readMore cs
termination_by (cs.length, 2)

/-- One argument at least, and the closing parenthesis. -/
def Arg.readMore (cs : List Char) : Except Fault (Taken (List Arg) cs) :=
  match Arg.read cs with
  | .error e => .error e
  | .ok a =>
    match h : skipBlank a.rest with
    | ')' :: rest => .ok ⟨[a.value], rest, by
        have h1 := a.shorter
        have h2 := length_skipBlank_le a.rest
        simp only [h, List.length_cons] at h2
        omega⟩
    | ',' :: rest =>
      have hrest : rest.length < cs.length := by
        have h1 := a.shorter
        have h2 := length_skipBlank_le a.rest
        simp only [h, List.length_cons] at h2
        omega
      match Arg.readMore rest with
      | .error e => .error e
      | .ok as => .ok ((as.map (a.value :: ·)).within (Nat.le_of_lt hrest))
    | ds => .error (unexpected ds)
termination_by (cs.length, 1)

end

/-- What stands behind `@{`, up to the blanks before the closing brace. -/
def Interpolation.read (cs : List Char) : Except Fault (Taken Interpolation cs) :=
  let ds := skipBlank cs
  have hds : ds.length ≤ cs.length := length_skipBlank_le cs
  match ds.takeWhile isWord with
  | [] => .error (unexpected ds)
  | word =>
    match h : ds.dropWhile isWord with
    | '(' :: es =>
      let name := String.ofList word
      if isOperationName name then
        match Arg.readArgs es with
        | .error e => .error e
        | .ok args =>
          .ok ((args.map (.call name)).within
            (Nat.le_of_lt (Nat.lt_of_lt_of_le (length_lt_of_dropWhile_eq h) hds)))
      else .error (.invalidOperationName name)
    | _ =>
      match hb : Binding.read ds with
      | .error e => .error e
      | .ok (b, rest) =>
        .ok ⟨.binding b, rest, Nat.lt_of_lt_of_le (Binding.read_shorter hb) hds⟩

/-! ## Texts -/

/-- An element of a text: a character, its escape undone, or an interpolation. -/
inductive Atom where
  | char (c : Char)
  | interpolation (i : Interpolation)

/-- Reads a text to its end. -/
def readAtoms : List Char → Except Fault (List Atom)
  | [] => .ok []
  | '\\' :: '\\' :: cs => (readAtoms cs).map (.char '\\' :: ·)
  | '\\' :: '@' :: '{' :: cs => (readAtoms cs).map fun as => .char '@' :: .char '{' :: as
  | '@' :: '{' :: cs =>
    match Interpolation.read cs with
    | .error e => .error e
    | .ok i =>
      match _h : skipBlank i.rest with
      | '}' :: rest => (readAtoms rest).map (.interpolation i.value :: ·)
      | c :: rest => .error (.unexpectedChar c (c :: rest))
      | [] => .error (.unclosedInterpolation ('@' :: '{' :: cs))
  | c :: cs => (readAtoms cs).map (.char c :: ·)
termination_by cs => cs.length
decreasing_by
  · simp only [List.length_cons]; omega
  · simp only [List.length_cons]; omega
  · have h1 := i.shorter
    have h2 := length_skipBlank_le i.rest
    simp only [_h, List.length_cons] at h2 ⊢
    omega
  · simp

/-- The piece of the characters passed, last one first; none if there are none. -/
def flush : List Char → List Piece
  | [] => []
  | cs => [.text (String.ofList cs.reverse)]

/-- The pieces that the elements make up, runs of characters becoming one text each; `passed` holds
the characters of the run so far, last one first. -/
def piecesFrom (passed : List Char) : List Atom → List Piece
  | [] => flush passed
  | .char c :: as => piecesFrom (c :: passed) as
  | .interpolation i :: as => flush passed ++ .interpolation i :: piecesFrom [] as

/-- The expression that pieces make up. -/
def Expr.ofPieces : List Piece → Expr
  | [] => .literal (.string "")
  | [.text s] => .literal (.string s)
  | [.interpolation i] => .single i
  | pieces => .template pieces

/-- The expression that the text spells; a fault is given by its offset. -/
def Expr.parse (raw : String) : Except (ParseError Nat) Expr :=
  ((readAtoms raw.toList).map fun as => Expr.ofPieces (piecesFrom [] as)).mapError
    (·.map (offset raw.toList))

end DataBinding
