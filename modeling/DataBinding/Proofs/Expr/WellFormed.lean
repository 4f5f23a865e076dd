import DataBinding.Expr
import DataBinding.Proofs.Path.Printed

/-!
# Well-formed expressions

Not every tree of the type `Expr` is an expression that a text can spell. A context has to be an
identifier and a key a word; an argument that is a word by itself must not be a reference, since
`true`, `false` and `null` are constants there; a call among arguments must not begin as a number
does; texts next to each other would be one text, and a template of one piece would be no template.

* `Expr.WellFormed`: the expressions that can be spelled.
-/

namespace DataBinding

open Text

/-- A name of an operation that can be written in an expression: word characters, not all of them
digits. -/
def Text.CallName (s : String) : Prop :=
  (∀ c ∈ s.toList, isWord c = true) ∧ ∃ c ∈ s.toList, isWordStart c = true

/-- The context is an identifier, and the keys are words. -/
def Binding.WellFormed (b : Binding) : Prop :=
  Identifier b.context ∧ ∀ s ∈ b.path, s.WellFormed

/-- The reference would be read as a constant. -/
def Binding.IsKeyword (b : Binding) : Prop :=
  b.path = [] ∧ b.context ∈ ["true", "false", "null"]

/-- The values that a literal argument can have. -/
def Value.IsConstant : Value → Prop
  | .null | .bool _ | .int _ | .string _ => True
  | .double x => x.isFinite = true
  | .array _ | .object _ => False

mutual

/-- An argument that can be spelled. -/
def Arg.WellFormed : Arg → Prop
  | .literal v => v.IsConstant
  | .binding b => b.WellFormed ∧ ¬ b.IsKeyword
  | .call name args =>
    CallName name ∧ Stops Char.isDigit name.toList ∧ Arg.AllWellFormed args

/-- Arguments that can be spelled. -/
def Arg.AllWellFormed : List Arg → Prop
  | [] => True
  | a :: as => a.WellFormed ∧ Arg.AllWellFormed as

end

/-- An interpolation that can be spelled. Here a word is always a reference, and a call may begin
with a digit. -/
def Interpolation.WellFormed : Interpolation → Prop
  | .binding b => b.WellFormed
  | .call name args => CallName name ∧ Arg.AllWellFormed args

/-- Whether the piece is a text. -/
def Piece.isText : Piece → Bool
  | .text _ => true
  | .interpolation _ => false

/-- A piece that can be spelled. -/
def Piece.WellFormed : Piece → Prop
  | .text s => s ≠ ""
  | .interpolation i => i.WellFormed

/-- Pieces that can be spelled, no two texts next to each other. -/
def Pieces (ps : List Piece) : Prop :=
  (∀ p ∈ ps, p.WellFormed) ∧ ps.IsChain fun p q => ¬ (p.isText = true ∧ q.isText = true)

/-- **An expression that can be spelled.** -/
def Expr.WellFormed : Expr → Prop
  | .literal v => ∃ s, v = .string s
  | .single i => i.WellFormed
  | .template ps => 2 ≤ ps.length ∧ Pieces ps

/-! ## Well-formedness is decidable -/

instance (s : String) : Decidable (CallName s) :=
  decidable_of_iff (s.toList.all isWord = true ∧ s.toList.any isWordStart = true) (by
    rw [List.all_eq_true, List.any_eq_true]
    rfl)

instance (b : Binding) : Decidable b.WellFormed :=
  inferInstanceAs (Decidable (_ ∧ _))

instance (b : Binding) : Decidable b.IsKeyword :=
  inferInstanceAs (Decidable (_ ∧ _))

instance : (v : Value) → Decidable v.IsConstant
  | .null | .bool _ | .int _ | .string _ => .isTrue trivial
  | .double x => inferInstanceAs (Decidable (x.isFinite = true))
  | .array _ | .object _ => .isFalse id

mutual

instance Arg.decidableWellFormed : (a : Arg) → Decidable a.WellFormed
  | .literal v => inferInstanceAs (Decidable v.IsConstant)
  | .binding b => inferInstanceAs (Decidable (b.WellFormed ∧ ¬ b.IsKeyword))
  | .call name args =>
    have := Arg.decidableAllWellFormed args
    inferInstanceAs (Decidable (CallName name ∧ Stops Char.isDigit name.toList ∧ _))

instance Arg.decidableAllWellFormed : (as : List Arg) → Decidable (Arg.AllWellFormed as)
  | [] => .isTrue trivial
  | a :: as =>
    have := Arg.decidableWellFormed a
    have := Arg.decidableAllWellFormed as
    inferInstanceAs (Decidable (_ ∧ _))

end

instance : (i : Interpolation) → Decidable i.WellFormed
  | .binding b => inferInstanceAs (Decidable b.WellFormed)
  | .call _ _ => inferInstanceAs (Decidable (_ ∧ _))

instance : (p : Piece) → Decidable p.WellFormed
  | .text s => inferInstanceAs (Decidable (s ≠ ""))
  | .interpolation i => inferInstanceAs (Decidable i.WellFormed)

instance (ps : List Piece) : Decidable (Pieces ps) :=
  inferInstanceAs (Decidable (_ ∧ _))

instance : (e : Expr) → Decidable e.WellFormed
  | .literal (.string s) => .isTrue ⟨s, rfl⟩
  | .literal .null | .literal (.bool _) | .literal (.int _) | .literal (.double _)
  | .literal (.array _) | .literal (.object _) => .isFalse nofun
  | .single i => inferInstanceAs (Decidable i.WellFormed)
  | .template _ => inferInstanceAs (Decidable (_ ∧ _))

end DataBinding
