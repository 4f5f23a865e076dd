import DataBinding.Path
import DataBinding.Text.Offset
import DataBinding.Text.Quote
import DataBinding.Text.Word

/-!
# Reading paths

A path is written as an identifier, then any number of continuations: `.` and a word, or an index
between brackets. An identifier is a word that does not begin with a digit.

* `Path.readHead`: the identifier and the steps behind it.
* `Path.parse`: a path, or the first fault with its offset.

In the interface: `parse`.
-/

namespace DataBinding

/-- What keeps a text from being a path. While the text is read, a place `Pos` in it is the text
left there; afterwards it is an offset. -/
inductive PathError (Pos : Type) where
  | empty
  | expectedIdentifier (pos : Pos)
  | emptySegment (pos : Pos)
  | unexpectedChar (c : Char) (pos : Pos)
  | unclosedBracket (pos : Pos)
  | invalidIndex (pos : Pos)
  deriving Repr, DecidableEq

namespace PathError

/-- The fault with its place given in another way. -/
def map {α β : Type} (f : α → β) : PathError α → PathError β
  | .empty => .empty
  | .expectedIdentifier pos => .expectedIdentifier (f pos)
  | .emptySegment pos => .emptySegment (f pos)
  | .unexpectedChar c pos => .unexpectedChar c (f pos)
  | .unclosedBracket pos => .unclosedBracket (f pos)
  | .invalidIndex pos => .invalidIndex (f pos)

/-- The fault in words. -/
def message : PathError Nat → String
  | .empty => "empty path"
  | .expectedIdentifier n => s!"path must start with an identifier at offset {n}"
  | .emptySegment n => s!"empty segment at offset {n}"
  | .unexpectedChar c n => s!"unexpected character {Text.quoteChar c} at offset {n}"
  | .unclosedBracket n => s!"unclosed bracket at offset {n}"
  | .invalidIndex n => s!"invalid index at offset {n}"

end PathError

namespace Path

open Text

/-- The index that digits spell, if it fits 64 bits. -/
def index? (digits : List Char) : Option UInt64 :=
  let n := Nat.ofDigitChars 10 digits 0
  if n < UInt64.size then some (UInt64.ofNat n) else none

/-- Reads continuations to the end of the text. -/
def readSteps : List Char → Except (PathError (List Char)) Path
  | [] => .ok []
  | '.' :: cs =>
    match cs.takeWhile isWord with
    | [] => .error (.emptySegment cs)
    | name => (readSteps (cs.dropWhile isWord)).map (.key (String.ofList name) :: ·)
  | '[' :: cs =>
    match _h : cs.dropWhile Char.isDigit with
    | [] => .error (.unclosedBracket ('[' :: cs))
    | ']' :: rest =>
      match cs.takeWhile Char.isDigit with
      | [] => .error (.emptySegment cs)
      | digits =>
        match index? digits with
        | some i => (readSteps rest).map (.index i :: ·)
        | none => .error (.invalidIndex cs)
    | c :: rest => .error (.unexpectedChar c (c :: rest))
  | c :: cs => .error (.unexpectedChar c (c :: cs))
termination_by cs => cs.length
decreasing_by
  · have := (List.dropWhile_suffix (l := cs) isWord).length_le
    simp only [List.length_cons]; omega
  · have := (List.dropWhile_suffix (l := cs) Char.isDigit).length_le
    rw [_h] at this
    simp only [List.length_cons] at this ⊢; omega

/-- Reads an identifier and the continuations behind it. -/
def readHead : List Char → Except (PathError (List Char)) (String × Path)
  | [] => .error .empty
  | c :: cs =>
    if isWordStart c then
      (readSteps ((c :: cs).dropWhile isWord)).map
        (String.ofList ((c :: cs).takeWhile isWord), ·)
    else .error (.expectedIdentifier (c :: cs))

/-- Reads an identifier and the continuations behind it; faults are given by offset. -/
def parseHead (cs : List Char) : Except (PathError Nat) (String × Path) :=
  (readHead cs).mapError (·.map (offset cs))

/-- Reads a path: an identifier, which is the first key, and its continuations. -/
def parse (s : String) : Except (PathError Nat) Path :=
  (parseHead s.toList).map fun head => .key head.1 :: head.2

end Path

end DataBinding
