/-!
# Paths

A path addresses a place inside a value: a list of steps, each into the field of an object or the
element of an array. The empty path addresses the whole value.

* `Path.render`: a path as text, such as `a.b[2].c`.
* `Path.continued`: the same behind a context's name, where the first key too has its point.
-/

namespace DataBinding

/-- One step of a path. -/
inductive Step where
  /-- Into the field of an object. -/
  | key (name : String)
  /-- Into the element of an array, counted from 0. -/
  | index (i : UInt64)
  deriving Repr, DecidableEq

/-- An address inside a value. -/
abbrev Path := List Step

namespace Step

/-- Whether the step is into a field. -/
def isKey : Step → Bool
  | .key _ => true
  | .index _ => false

/-- The step as it continues a path: `.name` or `[i]`. -/
def chars : Step → List Char
  | .key name => '.' :: name.toList
  | .index i => '[' :: Nat.toDigits 10 i.toNat ++ [']']

end Step

namespace Path

/-- The path as it continues a name. -/
def continued (p : Path) : List Char :=
  p.flatMap Step.chars

/-- The path by itself: a key that comes first has no point. -/
def chars : Path → List Char
  | .key name :: p => name.toList ++ continued p
  | p => continued p

/-- The path as text. -/
def render (p : Path) : String :=
  String.ofList p.chars

/-- The path without its last step; the empty path has none. -/
def parent? : Path → Option Path
  | [] => none
  | s :: p => some ((s :: p).dropLast)

end Path

end DataBinding
