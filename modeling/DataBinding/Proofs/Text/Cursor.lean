import DataBinding.Proofs.Path.Printed
import DataBinding.Text.Offset
import Mathlib

/-!
# Reading by byte offsets

A reader may keep its place in a text as an offset in bytes, and slice the text there. A slice has
to begin and end between two characters. A reader has to end, too: a loop has one turn for each
character of the text and one more, and a recursion goes no deeper. Here a reader that breaks one of
these rules has no result at all.

* `At`: what is left of a text at an offset, which then lies between two characters (`Boundary`).
* `from?`, `slice?`: slices, `none` where an end falls inside a character or beyond the text.
* `Cursor`: readers by offset. `Reads`: what such a reader does where a text is left.
* `Reads.ok_bind`, `Reads.peek`, `Reads.advance`, `Reads.passed`: one step after the other.
* `Reads.in_turns`, `reads_skipWhile`: loops, and the one over a class of characters.
-/

namespace DataBinding.Text

/-! ## Lengths of characters -/

theorem utf8Size_of_lt {c : Char} (h : c.toNat < 0x80) : 1 = c.utf8Size :=
  (Char.utf8Size_eq_one_iff.mpr (UInt32.le_iff_toNat_le.mpr (Nat.le_of_lt_succ h))).symm

theorem isDigit_utf8Size {c : Char} (h : c.isDigit = true) : 1 = c.utf8Size :=
  utf8Size_of_lt (isWord_lt (isWord_of_isDigit h))

theorem isWord_utf8Size {c : Char} (h : isWord c = true) : 1 = c.utf8Size :=
  utf8Size_of_lt (isWord_lt h)

theorem byteLength_eq_zero_iff {cs : List Char} : byteLength cs = 0 ↔ cs = [] := by
  cases cs with
  | nil => simp [byteLength]
  | cons c cs => simp [byteLength, c.utf8Size_pos.ne']

/-! ## Places -/

/-- At the offset, `rest` is left of the text. -/
def At (text : List Char) (n : Nat) (rest : List Char) : Prop :=
  ∃ before, before ++ rest = text ∧ byteLength before = n

theorem at_zero (text : List Char) : At text 0 text :=
  ⟨[], rfl, rfl⟩

variable {text cs ds : List Char} {n m : Nat}

theorem At.offset_eq (h : At text n cs) : offset text cs = n := by
  obtain ⟨before, rfl, rfl⟩ := h
  exact offset_append before cs

theorem At.unique (h : At text n cs) (h' : At text m cs) : n = m :=
  h.offset_eq.symm.trans h'.offset_eq

/-- Passing characters moves the offset by their length. -/
theorem At.append (h : At text n (cs ++ ds)) : At text (n + byteLength cs) ds := by
  obtain ⟨before, rfl, rfl⟩ := h
  exact ⟨before ++ cs, List.append_assoc _ _ _, byteLength_append _ _⟩

theorem At.tail {c : Char} (h : At text n (c :: cs)) : At text (n + c.utf8Size) cs :=
  At.append (show At text n ([c] ++ cs) from h)

theorem At.length_le (h : At text n cs) : cs.length ≤ text.length := by
  obtain ⟨before, rfl, -⟩ := h
  rw [List.length_append]
  exact Nat.le_add_left _ _

theorem At.dropWhile (h : At text n cs) (p : Char → Bool) :
    At text (n + byteLength (cs.takeWhile p)) (cs.dropWhile p) :=
  At.append (by rwa [List.takeWhile_append_dropWhile])

/-- The offset lies between two characters of the text or at one of its ends. -/
def Boundary (s : String) (n : Nat) : Prop :=
  (String.Pos.Raw.mk n).IsValid s ∧ n ≤ s.utf8ByteSize

/-- What is left at an offset of a text lies at a boundary of its characters. -/
theorem At.boundary {s : String} (h : At s.toList n cs) : Boundary s n := by
  obtain ⟨before, htext, rfl⟩ := h
  have hs : s = String.ofList before ++ String.ofList cs := by
    rw [← String.ofList_append, htext, String.ofList_toList]
  refine ⟨String.Pos.Raw.isValid_iff_exists_append.mpr ⟨_, _, hs, ?_⟩, ?_⟩
  · rw [String.Pos.Raw.ext_iff, byteLength_ofList]
    rfl
  · rw [← byteLength_toList, ← htext, byteLength_append]
    exact Nat.le_add_right _ _

/-! ## Slices -/

/-- The text from an offset on. -/
def from? : List Char → Nat → Option (List Char)
  | cs, 0 => some cs
  | [], _ + 1 => none
  | c :: cs, n + 1 => if c.utf8Size ≤ n + 1 then from? cs (n + 1 - c.utf8Size) else none

/-- The text up to an offset. -/
def upTo? : List Char → Nat → Option (List Char)
  | _, 0 => some []
  | [], _ + 1 => none
  | c :: cs, n + 1 =>
    if c.utf8Size ≤ n + 1 then (upTo? cs (n + 1 - c.utf8Size)).map (c :: ·) else none

/-- The text between two offsets. -/
def slice? (text : List Char) (start stop : Nat) : Option (List Char) :=
  if start ≤ stop then (from? text start).bind (upTo? · (stop - start)) else none

theorem from?_append (before cs : List Char) :
    from? (before ++ cs) (byteLength before) = some cs := by
  induction before with
  | nil => exact from?.eq_1 cs
  | cons c before ih =>
    obtain ⟨k, hk⟩ := Nat.exists_eq_add_of_lt c.utf8Size_pos
    have hlength : byteLength (c :: before) = (k + byteLength before) + 1 := by
      rw [byteLength, hk]
      omega
    rw [hlength, List.cons_append, from?, if_pos (by omega)]
    rw [show k + byteLength before + 1 - c.utf8Size = byteLength before by omega, ih]

theorem upTo?_append (before cs : List Char) :
    upTo? (before ++ cs) (byteLength before) = some before := by
  induction before with
  | nil => exact upTo?.eq_1 cs
  | cons c before ih =>
    obtain ⟨k, hk⟩ := Nat.exists_eq_add_of_lt c.utf8Size_pos
    have hlength : byteLength (c :: before) = (k + byteLength before) + 1 := by
      rw [byteLength, hk]
      omega
    rw [hlength, List.cons_append, upTo?, if_pos (by omega)]
    rw [show k + byteLength before + 1 - c.utf8Size = byteLength before by omega, ih]
    rfl

theorem At.from?_eq (h : At text n cs) : from? text n = some cs := by
  obtain ⟨before, rfl, rfl⟩ := h
  exact from?_append before cs

theorem At.slice?_eq (h : At text n (cs ++ ds)) (h' : At text m ds) :
    slice? text n m = some cs := by
  obtain rfl := h.append.unique h'
  rw [slice?, if_pos (Nat.le_add_right _ _), h.from?_eq, Nat.add_sub_cancel_left]
  exact upTo?_append cs ds

/-! ## Readers by offset -/

/-- A reader that keeps an offset. It gives a thing or a fault, and has no result if it slices the
text inside a character or takes too many turns. -/
abbrev Cursor (ε α : Type) := StateT Nat (ExceptT ε Option) α

namespace Cursor

variable {ε α : Type}

/-- The text that is left. -/
def left (text : List Char) : Cursor ε (List Char) := fun n =>
  ExceptT.mk ((from? text n).map fun rest => .ok (rest, n))

/-- The next character. -/
def peek (text : List Char) : Cursor ε (Option Char) :=
  List.head? <$> left text

/-- Moves the offset on. -/
def advance (k : Nat) : Cursor ε Unit :=
  modify (· + k)

/-- The text that was passed since an offset. -/
def passed (text : List Char) (start : Nat) : Cursor ε (List Char) := fun n =>
  ExceptT.mk ((slice? text start n).map fun cs => .ok (cs, n))

/-- No result. -/
def stuck : Cursor ε α := fun _ =>
  ExceptT.mk none

/-- Passes characters of a class in a number of turns, moving on by `width` at each. -/
def skipWhileIn (text : List Char) (p : Char → Bool) (width : Char → Nat) : Nat → Cursor ε Unit
  | turns + 1 => do
    match ← peek text with
    | some c =>
      if p c then
        advance (width c)
        skipWhileIn text p width turns
      else pure ()
    | none => pure ()
  | 0 => stuck

/-- Passes characters of a class. -/
def skipWhile (text : List Char) (p : Char → Bool) (width : Char → Nat) : Cursor ε Unit :=
  skipWhileIn text p width (text.length + 1)

/-- What the reader gives when it starts at the beginning of a text. -/
def fromStart (r : Cursor ε α) : Option (Except ε α) :=
  (r.run' 0).run

end Cursor

/-! ## What a reader by offset does -/

section Reads

variable {ε α β : Type} {marks : ε → Prop}

/-- Wherever `cs` is left of the text the reader has the result said: it gives the thing and goes on
to where the rest is left, or it gives the fault, and the fault is one that `marks` accepts. -/
def Reads (text : List Char) (marks : ε → Prop) (r : Cursor ε α) (cs : List Char) :
    Except ε (α × List Char) → Prop
  | .ok (a, rest) => ∀ n, At text n cs → ∃ m, (r.run n).run = some (.ok (a, m)) ∧ At text m rest
  | .error e => ∀ n, At text n cs → (r.run n).run = some (.error e) ∧ marks e

variable {r : Cursor ε α} {f : α → Cursor ε β} {result : Except ε (β × List Char)}

theorem Reads.pure (a : α) : Reads text marks (pure a) cs (.ok (a, cs)) :=
  fun n h => ⟨n, rfl, h⟩

theorem Reads.throw {e : ε} (h : ∀ n, At text n cs → marks e) :
    Reads text marks (throw e : Cursor ε α) cs (.error e) :=
  fun n hn => ⟨rfl, h n hn⟩

/-- A reader goes on where the one before it stopped. -/
theorem Reads.ok_bind {a : α} (hr : Reads text marks r cs (.ok (a, ds)))
    (hf : Reads text marks (f a) ds result) : Reads text marks (r >>= f) cs result := by
  have hrun : ∀ n, At text n cs → ∃ m, ((r >>= f).run n).run = ((f a).run m).run ∧
      At text m ds := by
    intro n hn
    obtain ⟨m, hm, hat⟩ := hr n hn
    refine ⟨m, ?_, hat⟩
    simp only [StateT.run_bind, ExceptT.run_bind, hm]
    rfl
  cases result with
  | ok b =>
    intro n hn
    obtain ⟨m, hm, hat⟩ := hrun n hn
    rw [hm]
    exact hf m hat
  | error e =>
    intro n hn
    obtain ⟨m, hm, hat⟩ := hrun n hn
    rw [hm]
    exact hf m hat

theorem Reads.error_bind {e : ε} (hr : Reads text marks r cs (.error e)) :
    Reads text marks (r >>= f) cs (.error e) := by
  intro n hn
  obtain ⟨hrun, hmarks⟩ := hr n hn
  refine ⟨?_, hmarks⟩
  simp only [StateT.run_bind, ExceptT.run_bind, hrun]
  rfl

/-- What is done with the thing that a reader gives leaves its place alone. -/
theorem Reads.map {result : Except ε (α × List Char)} (g : α → β)
    (hr : Reads text marks r cs result) :
    Reads text marks (r >>= fun a => Pure.pure (g a)) cs (result.map fun t => (g t.1, t.2)) := by
  cases result with
  | ok t => exact hr.ok_bind (Reads.pure _)
  | error e => exact hr.error_bind

theorem mapError_map_map {ε ε' α β : Type} (r : Except ε α) (f : α → β) (g : ε → ε')
    (rest : List Char) : ((r.map f).mapError g).map (·, rest) =
      ((r.mapError g).map (·, rest)).map fun t => (f t.1, t.2) := by
  cases r <;> rfl

/-- The offset where a reader stands may be named. -/
theorem Reads.of_at {result : Except ε (α × List Char)}
    (h : ∀ n, At text n cs → Reads text marks r cs result) : Reads text marks r cs result := by
  cases result with
  | ok t => exact fun n hn => h n hn n hn
  | error e => exact fun n hn => h n hn n hn

/-- A reader may look at its offset. -/
theorem Reads.get {f : Nat → Cursor ε β}
    (hf : ∀ n, At text n cs → Reads text marks (f n) cs result) :
    Reads text marks (get >>= f) cs result := by
  cases result with
  | ok b => exact fun n hn => hf n hn n hn
  | error e => exact fun n hn => hf n hn n hn

theorem Reads.left {f : List Char → Cursor ε β} (hf : Reads text marks (f cs) cs result) :
    Reads text marks (Cursor.left text >>= f) cs result := by
  refine Reads.ok_bind (fun n hn => ⟨n, ?_, hn⟩) hf
  simp only [Cursor.left, StateT.run, ExceptT.run, ExceptT.mk, hn.from?_eq]
  rfl

theorem Reads.peek {f : Option Char → Cursor ε β} (hf : Reads text marks (f cs.head?) cs result) :
    Reads text marks (Cursor.peek text >>= f) cs result := by
  rw [Cursor.peek, bind_map_left]
  exact Reads.left hf

/-- Passing characters, if they are as long as the reader takes them to be. -/
theorem Reads.advance_append (cs : List Char) {k : Nat} {f : Unit → Cursor ε β}
    (hk : k = byteLength cs) (hf : Reads text marks (f ()) ds result) :
    Reads text marks (Cursor.advance k >>= f) (cs ++ ds) result :=
  Reads.ok_bind (fun n hn => ⟨n + k, rfl, hk ▸ hn.append⟩) hf

/-- Passing one character. -/
theorem Reads.advance {c : Char} {k : Nat} {f : Unit → Cursor ε β} (hk : k = c.utf8Size)
    (hf : Reads text marks (f ()) cs result) :
    Reads text marks (Cursor.advance k >>= f) (c :: cs) result :=
  Reads.advance_append [c] hk hf

theorem Reads.passed {start : Nat} {f : List Char → Cursor ε β} (hstart : At text start (cs ++ ds))
    (hf : Reads text marks (f cs) ds result) :
    Reads text marks (Cursor.passed text start >>= f) ds result := by
  refine Reads.ok_bind (fun n hn => ⟨n, ?_, hn⟩) hf
  simp only [Cursor.passed, StateT.run, ExceptT.run, ExceptT.mk, hstart.slice?_eq hn]
  rfl

/-- A reader that takes a turn at each character has enough of them for the whole text. -/
theorem Reads.in_turns {r : Nat → Cursor ε α} {result : Except ε (α × List Char)}
    (h : ∀ turns, cs.length ≤ turns → Reads text marks (r (turns + 1)) cs result) :
    Reads text marks (r (text.length + 1)) cs result :=
  Reads.of_at fun _ hn => h _ hn.length_le

/-- Behind the first of `k + 1` characters there is a turn for the next. -/
theorem exists_turn {k turns : Nat} (h : k < turns) : ∃ left, turns = left + 1 ∧ k ≤ left :=
  ⟨turns - 1, by omega, by omega⟩

theorem reads_skipWhileIn {p : Char → Bool} {width : Char → Nat}
    (hwidth : ∀ c, p c = true → width c = c.utf8Size) (cs : List Char) {turns : Nat}
    (hturns : cs.length ≤ turns) : Reads text marks (Cursor.skipWhileIn text p width (turns + 1)) cs
      (.ok ((), cs.dropWhile p)) := by
  rw [Cursor.skipWhileIn]
  refine Reads.peek ?_
  induction cs generalizing turns with
  | nil => exact Reads.pure ()
  | cons c cs ih =>
    simp only [List.head?_cons]
    by_cases hc : p c = true
    · obtain ⟨left, rfl, hleft⟩ := exists_turn hturns
      rw [if_pos hc, List.dropWhile_cons_of_pos hc]
      refine Reads.advance (hwidth c hc) ?_
      rw [Cursor.skipWhileIn]
      exact Reads.peek (ih hleft)
    · rw [if_neg hc, List.dropWhile_cons_of_neg hc]
      exact Reads.pure ()

/-- **Passing a class of characters** drops them, if each is as long as the reader takes it to
be. -/
theorem reads_skipWhile {p : Char → Bool} {width : Char → Nat}
    (hwidth : ∀ c, p c = true → width c = c.utf8Size) (cs : List Char) :
    Reads text marks (Cursor.skipWhile text p width) cs (.ok ((), cs.dropWhile p)) :=
  Reads.in_turns fun _ => reads_skipWhileIn hwidth cs

theorem Reads.fromStart {result : Except ε (α × List Char)} (h : Reads text marks r text result) :
    r.fromStart = some (result.map Prod.fst) ∧ ∀ e, result = .error e → marks e := by
  rw [Cursor.fromStart, StateT.run', ExceptT.run_map]
  cases result with
  | ok t =>
    obtain ⟨m, hm, -⟩ := h 0 (at_zero text)
    exact ⟨congrArg (Functor.map (Except.map Prod.fst)) hm, nofun⟩
  | error e =>
    obtain ⟨he, hmarks⟩ := h 0 (at_zero text)
    exact ⟨congrArg (Functor.map (Except.map Prod.fst)) he, fun _ h => Except.error.inj h ▸ hmarks⟩

end Reads

end DataBinding.Text
