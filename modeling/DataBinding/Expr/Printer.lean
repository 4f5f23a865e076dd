import DataBinding.Expr
import DataBinding.Value.Printer

/-!
# Expressions as text

* `Expr.render`: the text that reads as the expression. A constant that is not a text is written as
  JSON.
-/

namespace DataBinding

/-- Text outside interpolations, with the backslash doubled and a backslash before `@{`. -/
def escapeText : List Char → List Char
  | [] => []
  | '\\' :: cs => '\\' :: '\\' :: escapeText cs
  | '@' :: '{' :: cs => '\\' :: '@' :: '{' :: escapeText cs
  | c :: cs => c :: escapeText cs

/-- A text as an argument: between apostrophes, with a backslash before each apostrophe and
backslash. -/
def quoteArg (cs : List Char) : List Char :=
  '\'' :: cs.flatMap (fun c => if c = '\'' ∨ c = '\\' then ['\\', c] else [c]) ++ ['\'']

/-- A literal argument. -/
def literalChars : Value → List Char
  | .string s => quoteArg s.toList
  | .double x => plainText x
  | v => v.jsonChars

/-- A reference: the context, and the path behind it. -/
def Binding.chars (b : Binding) : List Char :=
  b.context.toList ++ Path.continued b.path

mutual

/-- An argument as it stands in a call. -/
def Arg.chars : Arg → List Char
  | .literal v => literalChars v
  | .binding b => b.chars
  | .call name [] => name.toList ++ ['(', ')']
  | .call name (a :: as) => name.toList ++ '(' :: a.chars ++ Arg.charsAll as ++ [')']

/-- The arguments after the first, each behind a comma and a space. -/
def Arg.charsAll : List Arg → List Char
  | [] => []
  | a :: as => ',' :: ' ' :: a.chars ++ Arg.charsAll as

end

/-- An interpolation, without `@` and braces. -/
def Interpolation.chars (i : Interpolation) : List Char :=
  i.toArg.chars

/-- An interpolation as it stands in a text. -/
def Interpolation.braced (i : Interpolation) : List Char :=
  '@' :: '{' :: i.chars ++ ['}']

/-- A piece as it stands in a text. -/
def Piece.chars : Piece → List Char
  | .text s => escapeText s.toList
  | .interpolation i => i.braced

/-- An expression as text. -/
def Expr.chars : Expr → List Char
  | .literal (.string s) => escapeText s.toList
  | .literal v => v.jsonChars
  | .single i => i.braced
  | .template pieces => pieces.flatMap Piece.chars

/-- The text that reads as the expression. -/
def Expr.render (e : Expr) : String :=
  String.ofList e.chars

def Binding.render (b : Binding) : String :=
  String.ofList b.chars

def Interpolation.render (i : Interpolation) : String :=
  String.ofList i.chars

end DataBinding
