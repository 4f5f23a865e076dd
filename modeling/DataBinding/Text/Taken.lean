/-!
# What a reader takes off the front of a text

A reader that has to end must use up text. Its result carries the text left together with the proof
that it is shorter, so a reader may go on from there, or call itself.
-/

namespace DataBinding.Text

/-- A thing read off the front of `cs`, and the shorter text that is left. -/
structure Taken (α : Type) (cs : List Char) where
  value : α
  rest : List Char
  shorter : rest.length < cs.length

/-- The same text used up, for another value. -/
def Taken.map {α β : Type} {cs : List Char} (f : α → β) (t : Taken α cs) : Taken β cs :=
  ⟨f t.value, t.rest, t.shorter⟩

/-- What is taken off the end of a longer text is taken off the longer text. -/
def Taken.within {α : Type} {cs ds : List Char} (h : ds.length ≤ cs.length) (t : Taken α ds) :
    Taken α cs :=
  ⟨t.value, t.rest, Nat.lt_of_lt_of_le t.shorter h⟩

end DataBinding.Text
