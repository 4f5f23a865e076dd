import DataBinding.Operation.Parameters
import DataBinding.Text.LetterCase

/-!
# Operations on texts

Positions and lengths count characters.
-/

namespace DataBinding.Strings

/-- The texts, one behind the other. -/
def concat (params : List Value) : Guarded Value :=
  (Params.readAll Value.string? 0 params).map fun ss => .string (String.join ss)

/-- Applies `f` to the first parameter, a text. -/
def mapText (f : String → String) (params : List Value) : Guarded Value :=
  (Params.read Value.string? params 0).map fun s => .string (f s)

/-- The text with its first character in upper case. -/
def capitalize : List Value → Guarded Value := mapText Text.capitalize

/-- The text in upper case. -/
def uppercase : List Value → Guarded Value := mapText Text.toUpper

/-- The text in lower case. -/
def lowercase : List Value → Guarded Value := mapText Text.toLower

/-- The position behind a run of characters, if there is one. -/
def stop? (first length : Nat) : Guarded (Option Nat) :=
  positions.checked .add first length

/-- As many characters of a text as are asked for, from a position on. Both ends must lie within the
text. -/
def excerpt (text : String) (first length : Nat) : Guarded Value := do
  match ← stop? first length with
  | none => Guarded.fail .outOfBounds
  | some stop =>
    if text.toList.length < first || text.toList.length < stop then Guarded.fail .outOfBounds
    else return .string (String.ofList ((text.toList.drop first).take length))

/-- The characters of a text from a position on, all of them or as many as are asked for. There are
none behind the end. -/
def substr (params : List Value) : Guarded Value := do
  let text ← Params.read Value.string? params 0
  let first ← Params.index params 1
  let length ← Params.indexD params 2 (.ok (text.toList.length - first))
  excerpt text first length

/-- The operations on texts. -/
def operations : List Builtin :=
  [⟨"concat", .range 1 none, concat⟩, ⟨"capitalize", .fixed 1, capitalize⟩,
   ⟨"uppercase", .fixed 1, uppercase⟩, ⟨"lowercase", .fixed 1, lowercase⟩,
   ⟨"substr", .range 2 (some 3), substr⟩]

end DataBinding.Strings
