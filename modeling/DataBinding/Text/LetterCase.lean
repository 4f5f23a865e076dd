import DataBinding.Text.CaseTable

/-!
# Upper and lower case of texts

Each character is replaced by its case, which may be longer than one character. Only the lower case
of a capital sigma depends on its neighbours: at the end of a word it is the final sigma.
-/

namespace DataBinding.Text

/-- The case of a code point: a long one if listed, else the shift that covers it, else itself. -/
def mapCase (long : List (Nat × List Nat)) (shifts : List CaseShift) (n : Nat) : List Nat :=
  match long.find? (·.1 == n) with
  | some entry => entry.2
  | none =>
    match shifts.find? (·.covers n) with
    | some s => [(n + s.offset).toNat]
    | none => [n]

/-- The upper case of a character. -/
def upperChar (c : Char) : List Char :=
  if c.toNat < 0x80 then [c.toUpper]
  else (mapCase longUpper upperShifts c.toNat).map Char.ofNat

/-- The lower case of a character by itself. -/
def lowerChar (c : Char) : List Char :=
  if c.toNat < 0x80 then [c.toLower]
  else (mapCase longLower lowerShifts c.toNat).map Char.ofNat

/-- Whether the first character that is not passed over has a case. -/
def meetsCased (cs : List Char) : Bool :=
  match cs.dropWhile caseIgnorableRanges.contains with
  | c :: _ => casedRanges.contains c
  | [] => false

/-- The lower case of a text, of which `before` has been passed, last character first. A capital
sigma with a letter before it and none after it ends a word. -/
def lowerFrom (before : List Char) : List Char → List Char
  | [] => []
  | c :: rest =>
    let lower :=
      if c = 'Σ' then
        if meetsCased before && !meetsCased rest then ['ς'] else ['σ']
      else lowerChar c
    lower ++ lowerFrom (c :: before) rest

/-- The text in upper case. -/
def toUpper (s : String) : String :=
  String.ofList (s.toList.flatMap upperChar)

/-- The text in lower case. -/
def toLower (s : String) : String :=
  String.ofList (lowerFrom [] s.toList)

/-- The text with its first character in upper case. -/
def capitalize (s : String) : String :=
  match s.toList with
  | [] => ""
  | c :: rest => String.ofList (upperChar c ++ rest)

end DataBinding.Text
