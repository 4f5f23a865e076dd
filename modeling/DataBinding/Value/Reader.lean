import DataBinding.Text.Taken
import DataBinding.Value.Printer

/-!
# Reading JSON text

JSON text is one piece of data with blanks around its parts. Integers that fit 64 bits are integers,
all other numbers doubles, `-0` among them; a repeated key keeps its first place and takes the last
value. Arrays and objects may be nested `maxDepth` deep.

A number that is no integer is read in a fixed way that is quick rather than exact: its leading
digits, as many as fit 64 bits, are turned into a double, which is multiplied or divided by a power
of ten. Each of these roundings may move the result by one place.

This is the library to run with. Where values are read back nothing rests on it: there it is one of
the libraries that are strict (`JsonLibrary.Strict`).

* `Json.library`: reading and printing JSON text together.
* `Value.readJson?`: the value that the whole text spells.
* `Json.string?_shorter`, `Json.takeNumber?_shorter`: strings and numbers use up text.
-/

namespace DataBinding

namespace Json

/-- The four blanks of JSON. -/
def isBlank (c : Char) : Bool :=
  c == ' ' || c == '\t' || c == '\n' || c == '\r'

/-- The text from its first character that is not blank. -/
def skipBlank (cs : List Char) : List Char :=
  cs.dropWhile isBlank

theorem length_skipBlank_le (cs : List Char) : (skipBlank cs).length ≤ cs.length :=
  (List.dropWhile_suffix isBlank).length_le

/-! ## Numbers -/

/-- Appends decimal digits to `n` while it fits 64 bits; returns the digits left out. -/
def absorb (n : Nat) : List Char → Nat × List Char
  | [] => (n, [])
  | c :: cs =>
    let n' := n * 10 + (c.toNat - '0'.toNat)
    if n' < UInt64.size then absorb n' cs else (n, c :: cs)

/-- `x` divided by `10 ^ k`, at most 308 places at a time. -/
def shrink (x : Float) (k : Nat) : Float :=
  if k ≤ 308 then x / Decimal.toFloat ⟨1, k⟩
  else if x == 0.0 then x
  else shrink (x / Decimal.toFloat ⟨1, 308⟩) (k - 308)
termination_by k
decreasing_by omega

/-- `n * 10 ^ e` as a double; none if it is too large. -/
def scale? (n : Nat) (e : Int) : Option Float :=
  let x := Float.ofNat n
  if e < 0 then some (shrink x e.natAbs)
  else if x == 0.0 then some x
  else if 308 < e then none
  else
    let y := x * Decimal.toFloat ⟨1, e⟩
    if y.isFinite then some y else none

/-- The double that the digits before the point, those after it and the exponent stand for. -/
def double? (negative : Bool) (whole fraction : List Char) (exponent : Int) : Option Number :=
  let (n, skipped) := absorb 0 whole
  let (n', unused) := absorb n fraction
  let places := fraction.length - unused.length
  (scale? n' (exponent + skipped.length - places)).map fun x =>
    .double (if negative then -x else x)

/-- The value of an integer's digits: an integer if it fits, else a double. There is no integer
-0. -/
def integer? (negative : Bool) (whole : List Char) : Option Number :=
  let n : Int := Nat.ofDigitChars 10 whole 0
  if negative && n == 0 then some (.double (-0.0))
  else
    match toInt64? (if negative then -n else n) with
    | some i => some (.int i)
    | none => double? negative whole [] 0

/-- A fraction: a point and digits. -/
def takeFraction? : List Char → Option (List Char × List Char)
  | '.' :: cs =>
    match cs.takeWhile Char.isDigit with
    | [] => none
    | ds => some (ds, cs.dropWhile Char.isDigit)
  | cs => some ([], cs)

/-- An exponent: `e` or `E`, an optional sign and digits. -/
def takeExponent? : List Char → Option (Option Int × List Char)
  | c :: cs =>
    if c = 'e' ∨ c = 'E' then
      let (negative, ds) := splitSign cs
      match ds.takeWhile Char.isDigit with
      | [] => none
      | digits =>
        let n : Int := Nat.ofDigitChars 10 digits 0
        some (some (if negative then -n else n), ds.dropWhile Char.isDigit)
    else some (none, c :: cs)
  | [] => some (none, [])

/-- Whether the digits may stand before the point: at least one, and no zero before another. -/
def isWhole : List Char → Bool
  | [] => false
  | ['0'] => true
  | c :: _ => c != '0'

/-- An unsigned number and the text behind it. -/
def takeNumber? (negative : Bool) (cs : List Char) : Option (Number × List Char) :=
  let whole := cs.takeWhile Char.isDigit
  if isWhole whole then
    match takeFraction? (cs.dropWhile Char.isDigit) with
    | none => none
    | some (fraction, rest) =>
      match takeExponent? rest with
      | none => none
      | some (exponent, rest) =>
        let value :=
          if fraction.isEmpty && exponent.isNone then integer? negative whole
          else double? negative whole fraction (exponent.getD 0)
        value.map (·, rest)
  else none

/-! ## Strings -/

/-- The value of a hexadecimal digit. -/
def hexValue? (c : Char) : Option Nat :=
  if c.isDigit then some (c.toNat - '0'.toNat)
  else if 'a' ≤ c && c ≤ 'f' then some (c.toNat - 'a'.toNat + 10)
  else if 'A' ≤ c && c ≤ 'F' then some (c.toNat - 'A'.toNat + 10)
  else none

/-- The value of four hexadecimal digits. -/
def hex4? (a b c d : Char) : Option Nat :=
  match hexValue? a, hexValue? b, hexValue? c, hexValue? d with
  | some a, some b, some c, some d => some (((a * 16 + b) * 16 + c) * 16 + d)
  | _, _, _, _ => none

/-- The character of a one-letter escape. -/
def escaped? : Char → Option Char
  | '"' => some '"'
  | '\\' => some '\\'
  | '/' => some '/'
  | 'b' => some '\x08'
  | 'f' => some '\x0c'
  | 'n' => some '\n'
  | 'r' => some '\r'
  | 't' => some '\t'
  | _ => none

/-- Whether the number is the first half of a pair that stands for one character. -/
def isLead (n : Nat) : Bool :=
  0xd800 ≤ n && n ≤ 0xdbff

/-- Whether the number is the second half of such a pair. -/
def isTrail (n : Nat) : Bool :=
  0xdc00 ≤ n && n ≤ 0xdfff

/-- Reads a string up to its closing quotation mark. -/
def string? : List Char → Option (List Char × List Char)
  | [] => none
  | '"' :: cs => some ([], cs)
  | '\\' :: 'u' :: a :: b :: c :: d :: cs =>
    match hex4? a b c d with
    | none => none
    | some n =>
      if isTrail n then none
      else if isLead n then
        match cs with
        | '\\' :: 'u' :: a' :: b' :: c' :: d' :: cs' =>
          match hex4? a' b' c' d' with
          | none => none
          | some m =>
            if isTrail m then
              (string? cs').map fun r =>
                (Char.ofNat (0x10000 + (n - 0xd800) * 0x400 + (m - 0xdc00)) :: r.1, r.2)
            else none
        | _ => none
      else (string? cs).map fun r => (Char.ofNat n :: r.1, r.2)
  | '\\' :: c :: cs =>
    match escaped? c with
    | none => none
    | some c' => (string? cs).map fun r => (c' :: r.1, r.2)
  | c :: cs => if c.toNat < 0x20 then none else (string? cs).map fun r => (c :: r.1, r.2)

theorem string?_shorter {cs s rest : List Char} (h : string? cs = some (s, rest)) :
    rest.length < cs.length := by
  fun_induction string? cs generalizing s rest
  all_goals try simp only [reduceCtorEq, Option.map_eq_some_iff, Prod.mk.injEq, Prod.exists] at h
  case case2 =>
    obtain ⟨_, rfl⟩ := Prod.mk.inj (Option.some.inj h)
    simp
  all_goals
    rename_i ih
    obtain ⟨_, _, h, _, rfl⟩ := h
    have := ih h
    simp only [List.length_cons]
    omega

theorem takeFraction?_length_le {cs fraction rest : List Char}
    (h : takeFraction? cs = some (fraction, rest)) : rest.length ≤ cs.length := by
  unfold takeFraction? at h
  split at h
  · rename_i ds
    have := (List.dropWhile_suffix (l := ds) Char.isDigit).length_le
    split at h
    · simp at h
    · obtain ⟨_, rfl⟩ := Prod.mk.inj (Option.some.inj h)
      simp only [List.length_cons]; omega
  · obtain ⟨_, rfl⟩ := Prod.mk.inj (Option.some.inj h)
    exact Nat.le_refl _

theorem length_splitSign_le (cs : List Char) : (splitSign cs).2.length ≤ cs.length := by
  unfold splitSign
  split <;> simp

theorem takeExponent?_length_le {cs rest : List Char} {e : Option Int}
    (h : takeExponent? cs = some (e, rest)) : rest.length ≤ cs.length := by
  unfold takeExponent? at h
  split at h
  · rename_i c ds
    split at h
    · have h1 := length_splitSign_le ds
      have h2 := (List.dropWhile_suffix (l := (splitSign ds).2) Char.isDigit).length_le
      simp only at h
      split at h
      · simp at h
      · obtain ⟨_, rfl⟩ := Prod.mk.inj (Option.some.inj h)
        simp only [List.length_cons]; omega
    · obtain ⟨_, rfl⟩ := Prod.mk.inj (Option.some.inj h)
      exact Nat.le_refl _
  · obtain ⟨_, rfl⟩ := Prod.mk.inj (Option.some.inj h)
    exact Nat.le_refl _

theorem takeNumber?_shorter {negative : Bool} {cs rest : List Char} {v : Number}
    (h : takeNumber? negative cs = some (v, rest)) : rest.length < cs.length := by
  unfold takeNumber? at h
  simp only at h
  split at h
  · rename_i hw
    have hlen : (cs.takeWhile Char.isDigit).length + (cs.dropWhile Char.isDigit).length
        = cs.length := by
      rw [← List.length_append, List.takeWhile_append_dropWhile]
    have hpos : 0 < (cs.takeWhile Char.isDigit).length := by
      cases hc : cs.takeWhile Char.isDigit with
      | nil => simp [hc, isWhole] at hw
      | cons => simp
    split at h
    · simp at h
    · rename_i hf
      have h1 := takeFraction?_length_le hf
      split at h
      · simp at h
      · rename_i he
        have h2 := takeExponent?_length_le he
        simp only [Option.map_eq_some_iff, Prod.mk.injEq] at h
        obtain ⟨_, _, _, rfl⟩ := h
        omega
  · simp at h

/-! ## Data -/

/-- A number, behind its sign. -/
def number? (cs : List Char) : Option (Text.Taken Number cs) :=
  match cs with
  | '-' :: ds =>
    match h : takeNumber? true ds with
    | some (v, rest) => some ⟨v, rest, Nat.lt_succ_of_lt (takeNumber?_shorter h)⟩
    | none => none
  | ds =>
    match h : takeNumber? false ds with
    | some (v, rest) => some ⟨v, rest, takeNumber?_shorter h⟩
    | none => none

/-- A string, from its opening quotation mark. -/
def quoted? (cs : List Char) : Option (Text.Taken String cs) :=
  match cs with
  | '"' :: ds =>
    match h : string? ds with
    | some (s, rest) => some ⟨String.ofList s, rest, Nat.lt_succ_of_lt (string?_shorter h)⟩
    | none => none
  | _ => none

/-- A key, the colon behind it and the blanks around them. -/
def key? (cs : List Char) : Option (Text.Taken String cs) :=
  match quoted? (skipBlank cs) with
  | none => none
  | some k =>
    match h : skipBlank k.rest with
    | ':' :: rest => some ⟨k.value, skipBlank rest, by
        have h1 := length_skipBlank_le cs
        have h2 := length_skipBlank_le k.rest
        have h3 := length_skipBlank_le rest
        have h4 := k.shorter
        simp only [h, List.length_cons] at h2
        omega⟩
    | _ => none

mutual

/-- A piece of data in which arrays and objects are nested at most `depth` deep. -/
def value? (depth : Nat) (cs : List Char) : Option (Text.Taken (Json Number) cs) :=
  match cs with
  | 'n' :: 'u' :: 'l' :: 'l' :: rest => some ⟨.null, rest, by simp only [List.length_cons]; omega⟩
  | 't' :: 'r' :: 'u' :: 'e' :: rest =>
    some ⟨.bool true, rest, by simp only [List.length_cons]; omega⟩
  | 'f' :: 'a' :: 'l' :: 's' :: 'e' :: rest =>
    some ⟨.bool false, rest, by simp only [List.length_cons]; omega⟩
  | '"' :: ds => (quoted? ('"' :: ds)).map (·.map .string)
  | '[' :: ds =>
    match depth with
    | 0 => none
    | depth + 1 =>
      match h : skipBlank ds with
      | ']' :: rest => some ⟨.array [], rest, by
          have := length_skipBlank_le ds
          simp only [h, List.length_cons] at this ⊢
          omega⟩
      | _ => (items? depth ds).map fun t => (t.within (by simp)).map .array
  | '{' :: ds =>
    match depth with
    | 0 => none
    | depth + 1 =>
      match h : skipBlank ds with
      | '}' :: rest => some ⟨.object .empty, rest, by
          have := length_skipBlank_le ds
          simp only [h, List.length_cons] at this ⊢
          omega⟩
      | _ => (fields? depth ds).map fun t => (t.within (by simp)).map (.object ∘ Entries.ofList)
  | ds => (number? ds).map (·.map .number)
termination_by (cs.length, 0)

/-- The elements of an array, one at least, and its closing bracket. -/
def items? (depth : Nat) (cs : List Char) : Option (Text.Taken (List (Json Number)) cs) :=
  match value? depth (skipBlank cs) with
  | none => none
  | some v =>
    match h : skipBlank v.rest with
    | ']' :: rest => some ⟨[v.value], rest, by
        have h1 := length_skipBlank_le cs
        have h2 := length_skipBlank_le v.rest
        have h3 := v.shorter
        simp only [h, List.length_cons] at h2
        omega⟩
    | ',' :: rest =>
      have hrest : rest.length < cs.length := by
        have h1 := length_skipBlank_le cs
        have h2 := length_skipBlank_le v.rest
        have h3 := v.shorter
        simp only [h, List.length_cons] at h2
        omega
      (items? depth rest).map fun t => (t.within (Nat.le_of_lt hrest)).map (v.value :: ·)
    | _ => none
termination_by (cs.length, 1)
decreasing_by
  · have := length_skipBlank_le cs
    simp [Prod.lex_def]; omega
  · simp [Prod.lex_def]; omega

/-- The fields of an object, one at least, and its closing brace. -/
def fields? (depth : Nat) (cs : List Char) :
    Option (Text.Taken (List (String × Json Number)) cs) :=
  match key? cs with
  | none => none
  | some k =>
    match value? depth k.rest with
    | none => none
    | some v =>
      match h : skipBlank v.rest with
      | '}' :: rest => some ⟨[(k.value, v.value)], rest, by
          have h1 := k.shorter
          have h2 := length_skipBlank_le v.rest
          have h3 := v.shorter
          simp only [h, List.length_cons] at h2
          omega⟩
      | ',' :: rest =>
        have hrest : rest.length < cs.length := by
          have h1 := k.shorter
          have h2 := length_skipBlank_le v.rest
          have h3 := v.shorter
          simp only [h, List.length_cons] at h2
          omega
        (fields? depth rest).map fun t =>
          (t.within (Nat.le_of_lt hrest)).map ((k.value, v.value) :: ·)
      | _ => none
termination_by (cs.length, 1)
decreasing_by
  · have := k.shorter
    simp [Prod.lex_def]; omega
  · simp [Prod.lex_def]; omega

end

/-- The data that the whole text spells. -/
def read? (s : String) : Option (Json Number) :=
  match value? maxDepth (skipBlank s.toList) with
  | none => none
  | some j => if skipBlank j.rest = [] then some j.value else none

/-- The number that the whole text spells. -/
def readNumber? (s : String) : Option Number :=
  match number? s.toList with
  | none => none
  | some n => if n.rest = [] then some n.value else none

/-- The library that reads and prints as defined here. -/
def library : JsonLibrary where
  toJsonNumbers := numbers
  numeral n := String.ofList (numberChars n)
  number? := readNumber?
  write j := String.ofList j.chars
  read? := read?

end Json

/-- The value that the text spells, if it is the JSON text of one. -/
def Value.readJson? (s : String) : Option Value :=
  (Json.read? s).map (ofJson Json.numbers)

end DataBinding
