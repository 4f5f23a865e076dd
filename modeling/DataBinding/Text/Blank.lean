import DataBinding.Text.CharRanges

/-!
# Blank characters

Blanks may stand between the parts of an interpolation. They are the white space of every script:
tab to carriage return, the space, and the separators listed below.
-/

namespace DataBinding.Text

/-- The blank characters. -/
def blankRanges : CharRanges :=
  [(0x9, 0xd), (0x20, 0x20), (0x85, 0x85), (0xa0, 0xa0), (0x1680, 0x1680), (0x2000, 0x200a),
   (0x2028, 0x2029), (0x202f, 0x202f), (0x205f, 0x205f), (0x3000, 0x3000)]

/-- White space of any script. -/
def isBlank (c : Char) : Bool :=
  blankRanges.contains c

/-- The text from its first character that is not blank. -/
def skipBlank (cs : List Char) : List Char :=
  cs.dropWhile isBlank

theorem length_skipBlank_le (cs : List Char) : (skipBlank cs).length ≤ cs.length :=
  (List.dropWhile_suffix isBlank).length_le

end DataBinding.Text
