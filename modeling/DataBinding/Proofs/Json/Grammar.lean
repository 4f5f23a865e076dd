import DataBinding.Value.Reader
import Mathlib.Data.List.Forall2

/-!
# JSON text

The texts that strict JSON has for a piece of data. Blanks may stand around every part. A character
of a string may stand for itself or be escaped in several ways, and how numbers are spelled is left
open.

* `Json.StringBody`: a string between its quotation marks.
* `Json.Spelled`: the texts of a piece of data.
* `Json.Separated`: parts with commas between them; `separated_intercalate`: what is printed with
  commas is such.
-/

namespace DataBinding.Json

/-! ## Strings -/

/-- Characters and how they may stand between quotation marks. -/
inductive StringBody : List Char → List Char → Prop where
  | nil : StringBody [] []
  /-- A character may stand for itself, but for quotation marks, backslashes and controls. -/
  | plain {c : Char} {s cs : List Char} : c ≠ '"' → c ≠ '\\' → ¬ c.toNat < 0x20 →
      StringBody s cs → StringBody (c :: s) (c :: cs)
  /-- Some characters have an escape of one letter. -/
  | letter {c e : Char} {s cs : List Char} : escaped? e = some c → StringBody s cs →
      StringBody (c :: s) ('\\' :: e :: cs)
  /-- Four hexadecimal digits spell the number of a character. -/
  | code {c h₁ h₂ h₃ h₄ : Char} {s cs : List Char} : hex4? h₁ h₂ h₃ h₄ = some c.toNat →
      StringBody s cs → StringBody (c :: s) ('\\' :: 'u' :: h₁ :: h₂ :: h₃ :: h₄ :: cs)
  /-- A number that takes more digits is spelled by a pair of numbers. -/
  | pair {c h₁ h₂ h₃ h₄ l₁ l₂ l₃ l₄ : Char} {lead trail : Nat} {s cs : List Char} :
      hex4? h₁ h₂ h₃ h₄ = some lead → isLead lead = true →
      hex4? l₁ l₂ l₃ l₄ = some trail → isTrail trail = true →
      c.toNat = 0x10000 + (lead - 0xd800) * 0x400 + (trail - 0xdc00) → StringBody s cs →
      StringBody (c :: s)
        ('\\' :: 'u' :: h₁ :: h₂ :: h₃ :: h₄ :: '\\' :: 'u' :: l₁ :: l₂ :: l₃ :: l₄ :: cs)

/-- A string. -/
def SpelledString (s : String) (cs : List Char) : Prop :=
  ∃ body, StringBody s.toList body ∧ cs = '"' :: body ++ ['"']

/-! ## Parts -/

/-- Nothing but blanks. -/
def Blank (cs : List Char) : Prop :=
  ∀ c ∈ cs, isBlank c = true

/-- A part with blanks around it. -/
def Padded (part : List Char → Prop) (cs : List Char) : Prop :=
  ∃ before text after, Blank before ∧ part text ∧ Blank after ∧ cs = before ++ text ++ after

/-- A field: its key, a colon and its content. -/
def SpelledField (key : String) (content : List Char → Prop) (cs : List Char) : Prop :=
  ∃ k v, Padded (SpelledString key) k ∧ Padded content v ∧ cs = k ++ ':' :: v

/-- Parts with commas between them. -/
def Separated : List (List Char → Prop) → List Char → Prop
  | [], cs => Blank cs
  | [part], cs => part cs
  | part :: more :: parts, cs =>
    ∃ text rest, part text ∧ Separated (more :: parts) rest ∧ cs = text ++ ',' :: rest

/-- Parts with commas between them, and brackets around. -/
def Enclosed (opening closing : Char) (parts : List (List Char → Prop)) (cs : List Char) : Prop :=
  ∃ inner, Separated parts inner ∧ cs = opening :: inner ++ [closing]

/-! ## Data -/

section Spelled

variable {N : Type} (spells : N → List Char → Prop)

mutual

/-- The text is one of the data, if `spells` says which are those of a number. -/
def Spelled : Json N → List Char → Prop
  | .null => (· = ['n', 'u', 'l', 'l'])
  | .bool true => (· = ['t', 'r', 'u', 'e'])
  | .bool false => (· = ['f', 'a', 'l', 's', 'e'])
  | .number n => spells n
  | .string s => SpelledString s
  | .array js => Enclosed '[' ']' (spelledItems js)
  | .object ⟨fs⟩ => Enclosed '{' '}' (spelledFields fs)

/-- What stands for each of the elements. -/
def spelledItems : List (Json N) → List (List Char → Prop)
  | [] => []
  | j :: js => Padded (Spelled j) :: spelledItems js

/-- What stands for each of the fields. -/
def spelledFields : List (String × Json N) → List (List Char → Prop)
  | [] => []
  | (k, j) :: fs => SpelledField k (Spelled j) :: spelledFields fs

end

theorem spelledItems_eq (js : List (Json N)) :
    spelledItems spells js = js.map fun j => Padded (Spelled spells j) := by
  induction js with
  | nil => rfl
  | cons j js ih => exact congrArg (_ :: ·) ih

theorem spelledFields_eq (fs : List (String × Json N)) :
    spelledFields spells fs = fs.map fun e => SpelledField e.1 (Spelled spells e.2) := by
  induction fs with
  | nil => rfl
  | cons e fs ih => exact congrArg (_ :: ·) ih

end Spelled

/-! ## Texts that are parts in more than one way -/

section Mono

variable {p q : List Char → Prop} {cs : List Char}

theorem blank_nil : Blank [] :=
  List.forall_mem_nil _

theorem padded_of (h : p cs) : Padded p cs :=
  ⟨[], cs, [], blank_nil, h, blank_nil, by rw [List.nil_append, List.append_nil]⟩

theorem Padded.mono (hpq : ∀ cs, p cs → q cs) (h : Padded p cs) : Padded q cs := by
  obtain ⟨before, text, after, hbefore, hp, hafter, rfl⟩ := h
  exact ⟨before, text, after, hbefore, hpq text hp, hafter, rfl⟩

theorem SpelledField.mono {key : String} (hpq : ∀ cs, p cs → q cs) (h : SpelledField key p cs) :
    SpelledField key q cs := by
  obtain ⟨k, v, hk, hv, rfl⟩ := h
  exact ⟨k, v, hk, hv.mono hpq, rfl⟩

theorem Separated.mono {ps qs : List (List Char → Prop)}
    (hpq : List.Forall₂ (fun p q => ∀ cs, p cs → q cs) ps qs) (h : Separated ps cs) :
    Separated qs cs := by
  induction hpq generalizing cs with
  | nil => exact h
  | @cons p q ps qs hpq hpqs ih =>
    cases hpqs with
    | nil => exact hpq cs h
    | cons =>
      obtain ⟨text, rest, htext, hrest, rfl⟩ := h
      exact ⟨text, rest, hpq text htext, ih hrest, rfl⟩

theorem Enclosed.mono {opening closing : Char} {ps qs : List (List Char → Prop)}
    (hpq : List.Forall₂ (fun p q => ∀ cs, p cs → q cs) ps qs) (h : Enclosed opening closing ps cs) :
    Enclosed opening closing qs cs := by
  obtain ⟨inner, hinner, rfl⟩ := h
  exact ⟨inner, hinner.mono hpq, rfl⟩

/-- What is printed with commas between its parts is separated by them. -/
theorem separated_intercalate {ps : List (List Char → Prop)} {texts : List (List Char)}
    (h : List.Forall₂ (fun p text => p text) ps texts) :
    Separated ps ([','].intercalate texts) := by
  induction h with
  | nil => exact blank_nil
  | @cons p text ps texts hp hps ih =>
    cases hps with
    | nil =>
      have hone : [','].intercalate [text] = text := by simp [List.intercalate]
      exact hone.symm ▸ hp
    | cons => exact ⟨text, _, hp, ih, by simp [List.intercalate]⟩

end Mono

end DataBinding.Json
