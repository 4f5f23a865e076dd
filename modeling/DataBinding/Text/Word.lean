/-!
# Word characters

Words spell context ids, path keys and operation names inside an expression. They are ASCII.

* `isWord_lt`: a word character lies below U+0080.
-/

namespace DataBinding.Text

/-- A letter a to z or A to Z, a digit or an underscore. -/
def isWord (c : Char) : Bool :=
  c.isAlphanum || c == '_'

/-- A word character that can begin an identifier: any but a digit. -/
def isWordStart (c : Char) : Bool :=
  c.isAlpha || c == '_'

theorem isWord_of_isWordStart {c : Char} (h : isWordStart c = true) : isWord c = true := by
  rw [isWordStart, Bool.or_eq_true] at h
  rw [isWord, Bool.or_eq_true]
  exact h.imp_left fun h => Bool.or_eq_true _ _ ▸ Or.inl h

theorem isWord_of_isDigit {c : Char} (h : c.isDigit = true) : isWord c = true := by
  rw [isWord, Bool.or_eq_true]
  exact .inl (Bool.or_eq_true _ _ ▸ Or.inr h)

/-- A word character lies below U+0080. -/
theorem isWord_lt {c : Char} (h : isWord c = true) : c.toNat < 0x80 := by
  have below (hi : Char) (h : c.val ≤ hi.val) (hi_lt : hi.toNat < 0x80) : c.toNat < 0x80 :=
    Nat.lt_of_le_of_lt h hi_lt
  rw [isWord, Bool.or_eq_true, beq_iff_eq] at h
  rcases h with h | rfl
  · rcases (Bool.or_eq_true c.isAlpha c.isDigit).mp h with h | h
    · rcases (Bool.or_eq_true c.isUpper c.isLower).mp h with h | h
      · exact below 'Z' (of_decide_eq_true h).2 (by decide)
      · exact below 'z' (of_decide_eq_true ((Bool.and_eq_true _ _).mp h).2) (by decide)
    · exact below '9' (of_decide_eq_true ((Bool.and_eq_true _ _).mp h).2) (by decide)
  · decide

end DataBinding.Text
