import DataBinding.Decimal.Printer
import DataBinding.Json
import DataBinding.Number

/-!
# Values as text

* `Json.chars`: JSON data as text without blanks. Fields keep their order; in strings only the
  quotation mark, the backslash and the controls are escaped.
* `Value.json`: the text of a value as JSON data.
* `Value.text`: the text of a value inside a template. `null` leaves no trace, a string stands for
  itself, a double is written plainly, and every other value as JSON.

In the interface: `to_text`, with `format_double` for doubles. The text of JSON data is that of the
library to run with (`Json.library`).
-/

namespace DataBinding

/-- The digits of an integer, behind a minus sign if it is negative. -/
def intChars (n : Int) : List Char :=
  if n < 0 then '-' :: Nat.toDigits 10 n.natAbs else Nat.toDigits 10 n.natAbs

/-- The digits of a 64-bit integer. -/
def int64Chars (n : Int64) : List Char :=
  intChars n.toInt

/-- The lower-case hexadecimal digit of a number below 16. -/
def hexDigit (n : Nat) : Char :=
  Nat.digitChar n

/-- A character as it stands in a JSON string. -/
def jsonChar (c : Char) : List Char :=
  if c = '"' ∨ c = '\\' then ['\\', c]
  else if c = '\x08' then ['\\', 'b']
  else if c = '\x0c' then ['\\', 'f']
  else if c = '\n' then ['\\', 'n']
  else if c = '\r' then ['\\', 'r']
  else if c = '\t' then ['\\', 't']
  else if c.toNat < 0x20 then
    ['\\', 'u', '0', '0', hexDigit (c.toNat / 16), hexDigit (c.toNat % 16)]
  else [c]

/-- A text as a JSON string. -/
def jsonString (s : String) : List Char :=
  '"' :: s.toList.flatMap jsonChar ++ ['"']

namespace Json

/-- Integers of 64 bits and finite doubles are the numbers of JSON. -/
def numbers : JsonNumbers where
  Number := Number
  ofInt := .int
  ofDouble? x := if x.isFinite then some (.double x) else none
  int?
    | .int n => some n
    | .double _ => none
  double? n := some n.toFloat

/-- A number as it stands in JSON text. -/
def numberChars : Number → List Char
  | .int n => int64Chars n
  | .double x => jsonText x

mutual

/-- The data as JSON text. -/
def chars : Json Number → List Char
  | .null => ['n', 'u', 'l', 'l']
  | .bool true => ['t', 'r', 'u', 'e']
  | .bool false => ['f', 'a', 'l', 's', 'e']
  | .number n => numberChars n
  | .string s => jsonString s
  | .array js => '[' :: [','].intercalate (itemChars js) ++ [']']
  | .object ⟨fs⟩ => '{' :: [','].intercalate (fieldChars fs) ++ ['}']

/-- The texts of the elements. -/
def itemChars : List (Json Number) → List (List Char)
  | [] => []
  | j :: js => chars j :: itemChars js

/-- The texts of the fields, each behind its key and a colon. -/
def fieldChars : List (String × Json Number) → List (List Char)
  | [] => []
  | (k, j) :: fs => (jsonString k ++ ':' :: chars j) :: fieldChars fs

end

end Json

namespace Value

/-- The value as JSON text. -/
def jsonChars (v : Value) : List Char :=
  (v.toJson Json.numbers).chars

@[simp] theorem jsonChars_int (n : Int64) : (int n).jsonChars = int64Chars n :=
  rfl

/-- The value as JSON text. -/
def json (v : Value) : String :=
  String.ofList v.jsonChars

/-- The value as it stands inside a template. -/
def text : Value → String
  | .null => ""
  | .string s => s
  | .double x => String.ofList (plainText x)
  | v => v.json

end Value

end DataBinding
