import DataBinding.Text.NumberedChar

/-!
# Characters and texts quoted in messages

A message shows a character between apostrophes and a text between quotation marks. The mark in
use and the backslash are escaped, tab, newline, carriage return and NUL have short names, and what
cannot stand for itself is given by its code point.
-/

namespace DataBinding.Text

/-- The code point between braces, in lower-case hexadecimal digits. -/
def codePoint (c : Char) : List Char :=
  ['\\', 'u', '{'] ++ Nat.toDigits 16 c.toNat ++ ['}']

/-- A character as it stands between two `mark`s. -/
def quotedChar (mark : Char) (c : Char) : List Char :=
  if c = '\x00' then ['\\', '0']
  else if c = '\t' then ['\\', 't']
  else if c = '\n' then ['\\', 'n']
  else if c = '\r' then ['\\', 'r']
  else if c = mark || c = '\\' then ['\\', c]
  else if isNumbered c then codePoint c
  else [c]

/-- A character as a message shows it. -/
def quoteChar (c : Char) : String :=
  String.ofList ('\'' :: quotedChar '\'' c ++ ['\''])

/-- A text as a message shows it. -/
def quote (s : String) : String :=
  String.ofList ('"' :: s.toList.flatMap (quotedChar '"') ++ ['"'])

end DataBinding.Text
