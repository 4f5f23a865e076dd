import DataBinding.Path.Reader
import Mathlib

/-!
# Paths read back

A path whose keys are words reads back from its text behind an identifier, and every path that can
be read has words as keys.

* `Stops`: a text that a run of characters of a class does not extend into.
* `Text.Word`, `Text.Identifier`: what the reader takes as a key, and as the name in front.
* `Path.readHead_continued`: reading undoes printing.
* `Path.wellFormed_of_readHead`: what can be read.
-/

namespace DataBinding

open Text

/-! ## Runs of characters -/

/-- The text does not begin with a character of the class. -/
def Stops (p : Char → Bool) (rest : List Char) : Prop :=
  ∀ c, rest.head? = some c → ¬ p c = true

theorem stops_nil (p : Char → Bool) : Stops p [] :=
  nofun

theorem stops_cons {p : Char → Bool} {c : Char} (h : ¬ p c = true) (cs : List Char) :
    Stops p (c :: cs) := by
  intro d hd
  obtain rfl := Option.some.inj hd
  exact h

theorem head?_ne_some {c : Char} {cs : List Char} (h : ∀ ds, cs ≠ c :: ds) : cs.head? ≠ some c := by
  intro hhead
  obtain ⟨ds, hds⟩ := List.head?_eq_some_iff.mp hhead
  exact h ds hds

instance (p : Char → Bool) : (rest : List Char) → Decidable (Stops p rest)
  | [] => .isTrue (stops_nil p)
  | c :: _ => decidable_of_iff (¬ p c = true) ⟨fun h => stops_cons h _, fun h => h c rfl⟩

theorem Stops.takeWhile_eq {p : Char → Bool} {rest : List Char} (h : Stops p rest) :
    rest.takeWhile p = [] := by
  cases rest with
  | nil => rfl
  | cons c cs => exact List.takeWhile_cons_of_neg (h c rfl)

theorem Stops.dropWhile_eq {p : Char → Bool} {rest : List Char} (h : Stops p rest) :
    rest.dropWhile p = rest := by
  cases rest with
  | nil => rfl
  | cons c cs => exact List.dropWhile_cons_of_neg (h c rfl)

/-- A run of characters of a class ends where the text behind it begins. -/
theorem takeWhile_run {p : Char → Bool} {cs rest : List Char} (hcs : ∀ c ∈ cs, p c = true)
    (h : Stops p rest) : (cs ++ rest).takeWhile p = cs := by
  rw [List.takeWhile_append_of_pos hcs, h.takeWhile_eq, List.append_nil]

theorem dropWhile_run {p : Char → Bool} {cs rest : List Char} (hcs : ∀ c ∈ cs, p c = true)
    (h : Stops p rest) : (cs ++ rest).dropWhile p = rest := by
  rw [List.dropWhile_append_of_pos hcs, h.dropWhile_eq]

theorem mem_takeWhile {p : Char → Bool} {cs : List Char} : ∀ c ∈ cs.takeWhile p, p c = true :=
  fun _ hc => List.mem_takeWhile_imp hc

/-- What a mapped result came from. -/
theorem map_eq_ok_iff {ε α β : Type} {f : α → β} {r : Except ε α} {b : β} :
    r.map f = .ok b ↔ ∃ a, r = .ok a ∧ f a = b := by
  cases r with
  | error e => simp [Except.map]
  | ok a => simp [Except.map]

theorem mapError_eq_ok_iff {ε ε' α : Type} {f : ε → ε'} {r : Except ε α} {a : α} :
    r.mapError f = .ok a ↔ r = .ok a := by
  cases r with
  | error e => simp [Except.mapError]
  | ok a => simp [Except.mapError]

/-! ## Words -/

namespace Text

/-- A key: word characters, at least one. -/
def Word (s : String) : Prop :=
  s.toList ≠ [] ∧ ∀ c ∈ s.toList, isWord c = true

/-- A name: word characters, the first of them no digit. -/
def Identifier (s : String) : Prop :=
  (∀ c ∈ s.toList, isWord c = true) ∧ ∃ c, s.toList.head? = some c ∧ isWordStart c = true

instance (s : String) : Decidable (Word s) :=
  decidable_of_iff (s.toList ≠ [] ∧ s.toList.all isWord = true) (by rw [List.all_eq_true]; rfl)

instance (s : String) : Decidable (Identifier s) :=
  decidable_of_iff (s.toList.all isWord = true ∧ s.toList.head?.any isWordStart = true) (by
    rw [List.all_eq_true, Option.any_eq_true]
    rfl)

theorem not_isDigit_of_isWordStart {c : Char} (h : isWordStart c = true) :
    ¬ c.isDigit = true := by
  intro hd
  simp only [isWordStart, Char.isAlpha, Char.isUpper, Char.isLower, Char.isDigit, Bool.or_eq_true,
    Bool.and_eq_true, decide_eq_true_eq, beq_iff_eq, UInt32.le_iff_toNat_le] at h hd
  rcases h with (h | h) | rfl
  · exact absurd (Nat.le_trans h.1 hd.2) (by decide)
  · exact absurd (Nat.le_trans h.1 hd.2) (by decide)
  · revert hd
    decide

/-- A character of a word is a digit or may begin an identifier. -/
theorem isWordStart_of_isWord {c : Char} (h : isWord c = true) (hd : ¬ c.isDigit = true) :
    isWordStart c = true := by
  simp only [isWord, Char.isAlphanum, isWordStart, Bool.or_eq_true] at h ⊢
  rcases h with (h | h) | h
  · exact Or.inl h
  · exact absurd h hd
  · exact Or.inr h

theorem word_takeWhile {cs : List Char} (h : cs.takeWhile isWord ≠ []) :
    Word (String.ofList (cs.takeWhile isWord)) := by
  rw [Word, String.toList_ofList]
  exact ⟨h, mem_takeWhile⟩

theorem identifier_takeWhile {c : Char} (h : isWordStart c = true) (cs : List Char) :
    Identifier (String.ofList ((c :: cs).takeWhile isWord)) := by
  rw [Identifier, String.toList_ofList]
  refine ⟨mem_takeWhile, c, ?_, h⟩
  rw [List.takeWhile_cons_of_pos (isWord_of_isWordStart h)]
  rfl

end Text

/-- The step into a field has a word as its key. -/
def Step.WellFormed : Step → Prop
  | .key name => Word name
  | .index _ => True

instance : (s : Step) → Decidable s.WellFormed
  | .key name => inferInstanceAs (Decidable (Word name))
  | .index _ => .isTrue trivial

namespace Path

/-! ## Reading what was printed -/

theorem index?_toDigits (i : UInt64) : index? (Nat.toDigits 10 i.toNat) = some i := by
  simp only [index?, Nat.ofDigitChars_ten_toDigits]
  rw [if_pos i.toNat_lt_size, UInt64.ofNat_toNat]

/-- A path behind a word does not go on with it. -/
theorem stops_continued {p : Char → Bool} (hdot : ¬ p '.' = true) (hbracket : ¬ p '[' = true)
    (path : Path) : Stops p (continued path) := by
  cases path with
  | nil => exact stops_nil p
  | cons s path =>
    cases s with
    | key name => exact stops_cons hdot _
    | index i => exact stops_cons hbracket _

theorem readSteps_key {name : String} {rest : List Char} (h : Word name)
    (hrest : Stops isWord rest) :
    readSteps ((Step.key name).chars ++ rest) = (readSteps rest).map (.key name :: ·) := by
  obtain ⟨hne, hword⟩ := h
  rw [Step.chars, List.cons_append, readSteps, takeWhile_run hword hrest,
    dropWhile_run hword hrest]
  split
  · contradiction
  · rw [String.ofList_toList]

/-- Digits between brackets are read as the index that they denote. -/
theorem readSteps_digits {digits : List Char} {i : UInt64} (hne : digits ≠ [])
    (hdigits : ∀ c ∈ digits, c.isDigit = true) (hi : index? digits = some i) (rest : List Char) :
    readSteps ('[' :: digits ++ ']' :: rest) = (readSteps rest).map (.index i :: ·) := by
  have hstop : Stops Char.isDigit (']' :: rest) := stops_cons (by decide) _
  have hdrop := dropWhile_run hdigits hstop
  have htake := takeWhile_run hdigits hstop
  rw [List.cons_append, readSteps]
  split
  · rename_i hnil
    rw [hdrop] at hnil
    cases hnil
  · rename_i behind hbehind
    rw [hdrop] at hbehind
    obtain ⟨-, rfl⟩ := List.cons.inj hbehind
    rw [htake]
    split
    · exact absurd rfl hne
    · rw [hi]
  · rename_i c behind hne hbehind
    rw [hdrop] at hbehind
    exact absurd (List.cons.inj hbehind).1.symm (by simpa using hne)

theorem readSteps_index (i : UInt64) (rest : List Char) :
    readSteps ((Step.index i).chars ++ rest) = (readSteps rest).map (.index i :: ·) := by
  rw [Step.chars, List.append_assoc, List.singleton_append]
  exact readSteps_digits Nat.toDigits_ne_nil
    (fun c hc => Nat.isDigit_of_mem_toDigits (by decide) (by decide) hc) (index?_toDigits i) rest

theorem readSteps_continued {path : Path} (h : ∀ s ∈ path, s.WellFormed) :
    readSteps (continued path) = .ok path := by
  induction path with
  | nil => rw [continued, List.flatMap_nil, readSteps]
  | cons s path ih =>
    obtain ⟨hs, htail⟩ := List.forall_mem_cons.mp h
    have hcons : continued (s :: path) = s.chars ++ continued path := rfl
    rw [hcons]
    cases s with
    | key name =>
      rw [readSteps_key hs (stops_continued (by decide) (by decide) path), ih htail]
      rfl
    | index i =>
      rw [readSteps_index, ih htail]
      rfl

/-- An identifier is read up to where the text behind it begins. -/
theorem readHead_append {name : String} {path : Path} {rest : List Char} (hname : Identifier name)
    (hstop : Stops isWord rest) (hrest : readSteps rest = .ok path) :
    readHead (name.toList ++ rest) = .ok (name, path) := by
  obtain ⟨hword, c, hc, hstart⟩ := hname
  have htake := takeWhile_run hword hstop
  have hdrop := dropWhile_run hword hstop
  obtain ⟨ds, hds⟩ := List.head?_eq_some_iff.mp hc
  rw [hds, List.cons_append] at htake hdrop ⊢
  rw [readHead, if_pos hstart, htake, hdrop, hrest, ← hds, String.ofList_toList]
  rfl

/-- **A path reads back from its text behind an identifier.** -/
theorem readHead_continued {name : String} {path : Path} (hname : Identifier name)
    (h : ∀ s ∈ path, s.WellFormed) :
    readHead (name.toList ++ continued path) = .ok (name, path) :=
  readHead_append hname (stops_continued (by decide) (by decide) path) (readSteps_continued h)

/-! ## What can be read -/

theorem words_of_readSteps {cs : List Char} {path : Path} (h : readSteps cs = .ok path) :
    ∀ s ∈ path, s.WellFormed := by
  fun_induction readSteps cs generalizing path with
  | case1 =>
    obtain rfl := Except.ok.inj h
    exact nofun
  | case3 cs hne ih =>
    obtain ⟨tail, htail, rfl⟩ := map_eq_ok_iff.mp h
    exact List.forall_mem_cons.mpr ⟨word_takeWhile hne, ih htail⟩
  | case6 cs rest hrest i hne hi ih =>
    obtain ⟨tail, htail, rfl⟩ := map_eq_ok_iff.mp h
    exact List.forall_mem_cons.mpr ⟨trivial, ih htail⟩
  | _ => simp_all

/-- **What can be read** is an identifier, and a path whose keys are words. -/
theorem wellFormed_of_readHead {cs : List Char} {name : String} {path : Path}
    (h : readHead cs = .ok (name, path)) :
    name = String.ofList (cs.takeWhile isWord) ∧ readSteps (cs.dropWhile isWord) = .ok path ∧
      Identifier name ∧ ∀ s ∈ path, s.WellFormed := by
  unfold readHead at h
  split at h
  · cases h
  · split at h
    · rename_i c cs hstart
      obtain ⟨tail, htail, he⟩ := map_eq_ok_iff.mp h
      obtain ⟨rfl, rfl⟩ := Prod.mk.inj he
      exact ⟨rfl, htail, identifier_takeWhile hstart cs, words_of_readSteps htail⟩
    · cases h

end Path

end DataBinding
