import DataBinding.Path
import DataBinding.Value

/-!
# Expressions

An expression is the value of a property: a constant, a single interpolation `@{...}`, or a
template of texts and interpolations. An interpolation refers to a context, or calls an operation
on arguments that may be calls themselves.

* `Expr.bindings`: every reference to a context, from left to right.
-/

namespace DataBinding

/-- A reference to a place inside the value of a context. -/
structure Binding where
  context : String
  path : Path
  deriving Repr, DecidableEq

/-- An argument of a call. -/
inductive Arg where
  | literal (v : Value)
  | binding (b : Binding)
  | call (name : String) (args : List Arg)
  deriving Inhabited

/-- What stands between the braces of `@{...}`. -/
inductive Interpolation where
  | binding (b : Binding)
  | call (name : String) (args : List Arg)

/-- A part of a template. -/
inductive Piece where
  | text (s : String)
  | interpolation (i : Interpolation)

/-- The value of a property, to be evaluated. The template without pieces stands for a text that
could not be read. -/
inductive Expr where
  | literal (v : Value)
  | single (i : Interpolation)
  | template (pieces : List Piece)

/-! ## References -/

mutual

/-- The references in an argument. -/
def Arg.bindings : Arg → List Binding
  | .literal _ => []
  | .binding b => [b]
  | .call _ args => Arg.bindingsAll args

/-- The references in arguments, from left to right. -/
def Arg.bindingsAll : List Arg → List Binding
  | [] => []
  | a :: as => a.bindings ++ Arg.bindingsAll as

end

/-- An interpolation as an argument. -/
def Interpolation.toArg : Interpolation → Arg
  | .binding b => .binding b
  | .call name args => .call name args

/-- The references in an interpolation. -/
def Interpolation.bindings (i : Interpolation) : List Binding :=
  i.toArg.bindings

/-- The references in a piece. -/
def Piece.bindings : Piece → List Binding
  | .text _ => []
  | .interpolation i => i.bindings

/-- The references in an expression, from left to right. -/
def Expr.bindings : Expr → List Binding
  | .literal _ => []
  | .single i => i.bindings
  | .template pieces => pieces.flatMap Piece.bindings

/-- Whether the value of the expression depends on a context. -/
def Expr.isDynamic (e : Expr) : Bool :=
  !e.bindings.isEmpty

/-! ## Equality, up to the equality of literal values -/

mutual

def Arg.beq : Arg → Arg → Bool
  | .literal v, .literal w => v == w
  | .binding b, .binding c => b == c
  | .call f as, .call g bs => f == g && Arg.beqAll as bs
  | _, _ => false

def Arg.beqAll : List Arg → List Arg → Bool
  | [], [] => true
  | a :: as, b :: bs => a.beq b && Arg.beqAll as bs
  | _, _ => false

end

instance : BEq Arg := ⟨Arg.beq⟩

instance : BEq Interpolation := ⟨fun i j => i.toArg == j.toArg⟩

def Piece.beq : Piece → Piece → Bool
  | .text s, .text t => s == t
  | .interpolation i, .interpolation j => i == j
  | _, _ => false

instance : BEq Piece := ⟨Piece.beq⟩

def Expr.beq : Expr → Expr → Bool
  | .literal v, .literal w => v == w
  | .single i, .single j => i == j
  | .template ps, .template qs => ps == qs
  | _, _ => false

instance : BEq Expr := ⟨Expr.beq⟩

end DataBinding
