import DataBinding.Proofs.Text.Cursor

/-!
# Reading paths by offset

A path can be read with an offset in bytes for the place: one byte further at each character that
belongs to a path, and a slice for each key and each number. Such a reader always slices between
characters, ends, and agrees with `Path.parse`; the offsets of its faults are those of the places
that the faults are about.

* `PathError.Marks`: what stands at the offset of a fault. `PathError.InText`: where that is.
* `Cursor.segment`, `Cursor.index`, `Cursor.steps`, `Cursor.path`: the reader.
* `reads_steps`, `reads_path`: it does what `Path.readSteps` and `Path.parse` say.
-/

namespace DataBinding

open Text

/-! ## The places of faults -/

namespace PathError

/-- What stands at the offset that the fault names. -/
def Marks (text : List Char) : PathError Nat → Prop
  | .empty => text = []
  | .expectedIdentifier n => n = 0 ∧ text ≠ []
  | .emptySegment n => ∃ k c rest, At text k (c :: rest) ∧ (c = '.' ∨ c = '[') ∧ n = k + 1
  | .unexpectedChar c n => ∃ rest, At text n (c :: rest)
  | .unclosedBracket n => ∃ digits, At text n ('[' :: digits) ∧ ∀ c ∈ digits, c.isDigit = true
  | .invalidIndex n => ∃ digits rest, At text n (digits ++ ']' :: rest) ∧ digits ≠ [] ∧
      (∀ c ∈ digits, c.isDigit = true) ∧ 2 ^ 64 ≤ Nat.ofDigitChars 10 digits 0

/-- The offset of the fault lies at a boundary of the text. -/
def InText (s : String) : PathError Nat → Prop
  | .empty => True
  | .expectedIdentifier n | .emptySegment n | .unexpectedChar _ n | .unclosedBracket n
  | .invalidIndex n => Boundary s n

theorem Marks.inText {s : String} {e : PathError Nat} (h : e.Marks s.toList) : e.InText s := by
  cases e with
  | empty => trivial
  | expectedIdentifier n =>
    obtain ⟨rfl, -⟩ := h
    exact (at_zero s.toList).boundary
  | emptySegment n =>
    obtain ⟨k, c, rest, hat, hc, rfl⟩ := h
    have hsize : c.utf8Size = 1 := by
      rcases hc with rfl | rfl <;> rfl
    have htail := hat.tail
    rw [hsize] at htail
    exact htail.boundary
  | unexpectedChar c n =>
    obtain ⟨rest, hat⟩ := h
    exact hat.boundary
  | unclosedBracket n =>
    obtain ⟨digits, hat, -⟩ := h
    exact hat.boundary
  | invalidIndex n =>
    obtain ⟨digits, rest, hat, -⟩ := h
    exact hat.boundary

end PathError

/-! ## The reader -/

namespace Text.Cursor

/-- A key: word characters, at least one. -/
def segment (text : List Char) : Cursor (PathError Nat) String := do
  let start ← get
  skipWhile text isWord fun _ => 1
  let stop ← get
  if stop = start then throw (.emptySegment start)
  else return String.ofList (← passed text start)

/-- The closing bracket behind the digits of an index, which begin at `start`. -/
def close (text : List Char) (start : Nat) (digits : List Char) :
    Cursor (PathError Nat) UInt64 := do
  match ← peek text with
  | some ']' =>
    advance 1
    if digits = [] then throw (.emptySegment start)
    else
      match Path.index? digits with
      | some i => return i
      | none => throw (.invalidIndex start)
  | some c => throw (.unexpectedChar c (← get))
  | none => throw (.unclosedBracket (start - 1))

/-- Digits and the closing bracket. -/
def index (text : List Char) : Cursor (PathError Nat) UInt64 := do
  let start ← get
  skipWhile text Char.isDigit fun _ => 1
  let digits ← passed text start
  close text start digits

/-- Continuations to the end of the text, in a number of turns. -/
def stepsIn (text : List Char) : Nat → Cursor (PathError Nat) Path
  | turns + 1 => do
    match ← peek text with
    | some '.' =>
      advance 1
      let name ← segment text
      return .key name :: (← stepsIn text turns)
    | some '[' =>
      advance 1
      let i ← index text
      return .index i :: (← stepsIn text turns)
    | some c => throw (.unexpectedChar c (← get))
    | none => return []
  | 0 => stuck

/-- Continuations to the end of the text. -/
def steps (text : List Char) : Cursor (PathError Nat) Path :=
  stepsIn text (text.length + 1)

/-- A path: an identifier, which is the first key, and its continuations. -/
def path (text : List Char) : Cursor (PathError Nat) Path := do
  if text = [] then throw .empty
  else
    match ← peek text with
    | some c =>
      if isWordStart c then
        let name ← segment text
        return .key name :: (← steps text)
      else throw (.expectedIdentifier 0)
    | none => throw (.expectedIdentifier 0)

end Text.Cursor

/-! ## It agrees -/

namespace Path

variable {text cs : List Char}

theorem reads_segment (h : cs.takeWhile isWord ≠ []) :
    Reads text (PathError.Marks text) (Cursor.segment text) cs
      (.ok (String.ofList (cs.takeWhile isWord), cs.dropWhile isWord)) := by
  rw [Cursor.segment]
  refine Reads.get fun start hstart => ?_
  refine Reads.ok_bind (reads_skipWhile (fun _ => isWord_utf8Size) cs) ?_
  refine Reads.get fun stop hstop => ?_
  have hne : stop ≠ start := by
    intro he
    have hlength := (hstart.dropWhile isWord).unique hstop
    exact h (byteLength_eq_zero_iff.mp (by omega))
  rw [if_neg hne]
  refine Reads.passed ?_ (Reads.pure _)
  rwa [List.takeWhile_append_dropWhile]

theorem reads_segment_empty (h : cs.takeWhile isWord = [])
    (hmarks : ∀ n, At text n cs → (PathError.emptySegment n).Marks text) :
    Reads text (PathError.Marks text) (Cursor.segment text) cs
      (.error (.emptySegment (offset text cs))) := by
  rw [Cursor.segment]
  refine Reads.get fun start hstart => ?_
  refine Reads.ok_bind (reads_skipWhile (fun _ => isWord_utf8Size) cs) ?_
  refine Reads.get fun stop hstop => ?_
  have heq : stop = start := by
    have hlength := (hstart.dropWhile isWord).unique hstop
    rw [h] at hlength
    exact hlength.symm
  rw [if_pos heq, hstart.offset_eq]
  exact Reads.throw fun n hn => hmarks start hstart

theorem reads_index {n : Nat} {result : Except (PathError Nat) (UInt64 × List Char)}
    (hn : At text n ('[' :: cs))
    (h : Reads text (PathError.Marks text) (Cursor.close text (n + 1) (cs.takeWhile Char.isDigit))
      (cs.dropWhile Char.isDigit) result) :
    Reads text (PathError.Marks text) (Cursor.index text) cs result := by
  rw [Cursor.index]
  refine Reads.get fun start hstart => ?_
  obtain rfl := hn.tail.unique hstart
  refine Reads.ok_bind (reads_skipWhile (fun _ => isDigit_utf8Size) cs) (Reads.passed ?_ h)
  rwa [List.takeWhile_append_dropWhile]

/-- Behind an opening bracket, the fault is that of what stands behind its digits. -/
theorem reads_bracket_error {e : PathError Nat} (h : ∀ n, At text n ('[' :: cs) →
      Reads text (PathError.Marks text)
        (Cursor.close text (n + 1) (cs.takeWhile Char.isDigit)) (cs.dropWhile Char.isDigit)
        (.error e)) (turns : Nat) :
    Reads text (PathError.Marks text) (Cursor.stepsIn text (turns + 1)) ('[' :: cs) (.error e) := by
  rw [Cursor.stepsIn]
  refine Reads.peek (Reads.of_at fun n hn => Reads.advance rfl (Reads.error_bind ?_))
  exact reads_index hn (h n hn)

theorem le_of_index?_eq_none {digits : List Char} (h : index? digits = none) :
    2 ^ 64 ≤ Nat.ofDigitChars 10 digits 0 := by
  simp only [index?] at h
  split at h
  · cases h
  · rename_i hlt
    exact Nat.le_of_not_lt hlt

theorem reads_stepsIn (text cs : List Char) {turns : Nat} (hturns : cs.length ≤ turns) :
    Reads text (PathError.Marks text) (Cursor.stepsIn text (turns + 1)) cs
      (((readSteps cs).mapError (·.map (offset text))).map fun p => (p, [])) := by
  fun_induction readSteps cs generalizing turns with
  | case1 =>
    rw [Cursor.stepsIn]
    exact Reads.peek (Reads.pure [])
  | case2 cs hempty =>
    rw [Cursor.stepsIn]
    refine Reads.peek ?_
    refine Reads.of_at fun n hn => Reads.advance rfl (Reads.error_bind ?_)
    refine reads_segment_empty hempty fun m hm => ?_
    exact ⟨n, '.', cs, hn, .inl rfl, hn.tail.unique hm ▸ rfl⟩
  | case3 cs hne ih =>
    have hlength := (List.dropWhile_suffix (l := cs) isWord).length_le
    obtain ⟨left, rfl, hleft⟩ := exists_turn (Nat.lt_of_le_of_lt hlength hturns)
    rw [Cursor.stepsIn]
    refine Reads.peek ?_
    refine Reads.advance rfl (Reads.ok_bind (reads_segment hne) ?_)
    rw [mapError_map_map]
    exact (ih hleft).map _
  | case4 cs hend =>
    refine reads_bracket_error (fun n hn => ?_) turns
    rw [hend, Cursor.close]
    refine Reads.peek ?_
    simp only [List.head?_nil, Nat.add_sub_cancel, ← hn.offset_eq]
    refine Reads.throw fun m hm => ⟨cs, hn.offset_eq.symm ▸ hn, ?_⟩
    exact List.dropWhile_eq_nil_iff.mp hend
  | case5 cs rest hrest hempty =>
    refine reads_bracket_error (fun n hn => ?_) turns
    rw [hrest, Cursor.close]
    refine Reads.peek (Reads.advance rfl ?_)
    have hplace : offset text cs = n + 1 := hn.tail.offset_eq
    simp only [hempty, if_true, PathError.map, hplace]
    exact Reads.throw fun _ _ => ⟨n, '[', cs, hn, .inr rfl, rfl⟩
  | case6 cs rest hrest i hne hi ih =>
    have hlength := (List.dropWhile_suffix (l := cs) Char.isDigit).length_le
    rw [hrest, List.length_cons] at hlength
    obtain ⟨left, rfl, hleft⟩ := exists_turn (Nat.lt_of_lt_of_le hlength (Nat.le_of_lt hturns))
    rw [Cursor.stepsIn]
    refine Reads.peek (Reads.of_at fun n hn => Reads.advance rfl ?_)
    have hindex : Reads text (PathError.Marks text) (Cursor.index text) cs (.ok (i, rest)) := by
      refine reads_index hn ?_
      rw [hrest, Cursor.close]
      refine Reads.peek (Reads.advance rfl ?_)
      rw [if_neg hne, hi]
      exact Reads.pure i
    refine hindex.ok_bind ?_
    rw [mapError_map_map]
    exact (ih hleft).map _
  | case7 cs rest hrest hne hi =>
    refine reads_bracket_error (fun n hn => ?_) turns
    rw [hrest, Cursor.close]
    refine Reads.peek (Reads.advance rfl ?_)
    have hplace : offset text cs = n + 1 := hn.tail.offset_eq
    simp only [if_neg hne, hi, PathError.map, hplace]
    refine Reads.throw fun _ _ => ⟨cs.takeWhile Char.isDigit, rest, ?_, hne, mem_takeWhile,
      le_of_index?_eq_none hi⟩
    rw [← hrest, List.takeWhile_append_dropWhile]
    exact hn.tail
  | case8 cs c rest hc hrest =>
    refine reads_bracket_error (fun n hn => ?_) turns
    rw [hrest, Cursor.close]
    refine Reads.peek ?_
    simp only [List.head?_cons]
    refine Reads.get fun m hm => ?_
    simp only [PathError.map, hm.offset_eq]
    exact Reads.throw fun _ _ => ⟨rest, hm⟩
  | case9 c cs hdot hbracket =>
    rw [Cursor.stepsIn]
    refine Reads.peek ?_
    simp only [List.head?_cons]
    refine Reads.get fun m hm => ?_
    simp only [Except.mapError, Except.map, PathError.map, hm.offset_eq]
    exact Reads.throw fun _ _ => ⟨cs, hm⟩

theorem reads_steps (text cs : List Char) :
    Reads text (PathError.Marks text) (Cursor.steps text) cs
      (((readSteps cs).mapError (·.map (offset text))).map fun p => (p, [])) :=
  Reads.in_turns fun _ => reads_stepsIn text cs

theorem reads_path (text : List Char) :
    Reads text (PathError.Marks text) (Cursor.path text) text
      (((parseHead text).map fun head => .key head.1 :: head.2).map (·, [])) := by
  rw [Cursor.path, parseHead]
  cases text with
  | nil => exact Reads.throw fun _ _ => rfl
  | cons c cs =>
    rw [if_neg (List.cons_ne_nil c cs), readHead]
    refine Reads.peek ?_
    simp only [List.head?_cons]
    by_cases hc : isWordStart c = true
    · have hne : (c :: cs).takeWhile isWord ≠ [] := by
        rw [List.takeWhile_cons_of_pos (isWord_of_isWordStart hc)]
        exact List.cons_ne_nil _ _
      rw [if_pos hc, if_pos hc]
      refine Reads.ok_bind (reads_segment hne) ?_
      have hsteps := (reads_steps (c :: cs) ((c :: cs).dropWhile isWord)).map
        (.key (String.ofList ((c :: cs).takeWhile isWord)) :: ·)
      cases hread : readSteps ((c :: cs).dropWhile isWord) <;> rwa [hread] at hsteps
    · have hplace : offset (c :: cs) (c :: cs) = 0 := (at_zero _).offset_eq
      rw [if_neg hc, if_neg hc]
      simp only [Except.mapError, Except.map, PathError.map, hplace]
      exact Reads.throw fun _ _ => ⟨rfl, List.cons_ne_nil c cs⟩

/-- The path that a text spells, read by offset. -/
def parse? (s : String) : Option (Except (PathError Nat) Path) :=
  (Cursor.path s.toList).fromStart

/-- **Reading by offset** slices between characters only and ends, with the path or the fault that
`Path.parse` gives. -/
theorem parse?_eq (s : String) : parse? s = some (parse s) := by
  rw [parse?, (reads_path s.toList).fromStart.1, parse]
  cases parseHead s.toList <;> rfl

/-- The fault of a text that spells no path is about what stands at its offset. -/
theorem marks_of_parse {s : String} {e : PathError Nat} (h : parse s = .error e) :
    e.Marks s.toList := by
  refine (reads_path s.toList).fromStart.2 e ?_
  rw [parse] at h
  rw [h]
  rfl

end Path

end DataBinding
