import DataBinding.Proofs.Path.Printed

/-!
# How paths are spelled

A path is spelled node by node: its first key bare, each later key behind a point, and each index
between brackets, with as many zeros in front as one likes. The texts that read as a path are
exactly those that spell it, if its first step is an identifier and its other keys are words.

* `Path.Spells`: the texts that spell a path.
* `trimIndices`: a text without the zeros in front of its indices.
* `Path.parse_eq_ok_iff_spells`: reading accepts exactly the spellings, and printing gives the one
  without such zeros.
-/

namespace DataBinding

open Text

/-! ## Spellings -/

/-- The text spells the step behind others: a point and the key, or digits between brackets that
denote the index. -/
inductive Step.Spells : Step → List Char → Prop
  | key (name : String) : Spells (.key name) ('.' :: name.toList)
  | index {i : UInt64} {digits : List Char} (hne : digits ≠ [])
      (hdigits : ∀ c ∈ digits, c.isDigit = true)
      (hvalue : Nat.ofDigitChars 10 digits 0 = i.toNat) :
      Spells (.index i) ('[' :: digits ++ [']'])

namespace Path

/-- The text spells the steps one by one, each as behind others. -/
inductive Continues : Path → List Char → Prop
  | nil : Continues [] []
  | cons {s : Step} {p : Path} {cs ds : List Char} (hs : s.Spells cs) (hp : Continues p ds) :
      Continues (s :: p) (cs ++ ds)

/-- The text spells the path: a key that comes first stands bare. -/
inductive Spells : Path → List Char → Prop
  | root : Spells [] []
  | key (name : String) {p : Path} {cs : List Char} (hp : Continues p cs) :
      Spells (.key name :: p) (name.toList ++ cs)
  | index {i : UInt64} {p : Path} {cs : List Char} (hp : Continues (.index i :: p) cs) :
      Spells (.index i :: p) cs

/-- The paths that a text can give: an identifier comes first, and the other keys are words. -/
def Readable : Path → Prop
  | .key name :: p => Identifier name ∧ ∀ s ∈ p, s.WellFormed
  | _ => False

instance : (p : Path) → Decidable p.Readable
  | .key name :: p => inferInstanceAs (Decidable (Identifier name ∧ ∀ s ∈ p, s.WellFormed))
  | [] | .index _ :: _ => .isFalse id

/-! ## Reading accepts the spellings -/

theorem index?_eq_some_iff {digits : List Char} {i : UInt64} :
    index? digits = some i ↔ Nat.ofDigitChars 10 digits 0 = i.toNat := by
  simp only [index?]
  constructor
  · intro h
    split at h
    · rename_i hlt
      obtain rfl := Option.some.inj h
      exact (UInt64.toNat_ofNat_of_lt' hlt).symm
    · cases h
  · intro h
    rw [h, if_pos i.toNat_lt_size, UInt64.ofNat_toNat]

theorem Continues.stops_of {p : Path} {cs : List Char} (h : Continues p cs) {q : Char → Bool}
    (hdot : ¬ q '.' = true) (hbracket : ¬ q '[' = true) : Stops q cs := by
  cases h with
  | nil => exact stops_nil _
  | cons hs hp =>
    cases hs with
    | key name => exact stops_cons hdot _
    | index hne hdigits hvalue => exact stops_cons hbracket _

theorem Continues.stops {p : Path} {cs : List Char} (h : Continues p cs) : Stops isWord cs :=
  h.stops_of (by decide) (by decide)

theorem readSteps_of_continues {p : Path} {cs : List Char} (h : Continues p cs)
    (hp : ∀ s ∈ p, s.WellFormed) : readSteps cs = .ok p := by
  induction h with
  | nil => rw [readSteps]
  | @cons s p cs ds hs hcontinues ih =>
    obtain ⟨hword, htail⟩ := List.forall_mem_cons.mp hp
    cases hs with
    | key name =>
      have hread := readSteps_key hword hcontinues.stops
      rw [Step.chars] at hread
      rw [hread, ih htail]
      rfl
    | index hne hdigits hvalue =>
      have hread := readSteps_digits hne hdigits (index?_eq_some_iff.mpr hvalue) ds
      rw [List.append_assoc, List.singleton_append, hread, ih htail]
      rfl

theorem continues_of_readSteps {cs : List Char} {p : Path} (h : readSteps cs = .ok p) :
    Continues p cs := by
  fun_induction readSteps cs generalizing p with
  | case1 =>
    obtain rfl := Except.ok.inj h
    exact .nil
  | case3 cs hne ih =>
    obtain ⟨tail, htail, rfl⟩ := map_eq_ok_iff.mp h
    have hkey := Step.Spells.key (String.ofList (cs.takeWhile isWord))
    rw [String.toList_ofList] at hkey
    have hcons := Continues.cons hkey (ih htail)
    rwa [List.cons_append, List.takeWhile_append_dropWhile] at hcons
  | case6 cs rest hrest i hne hi ih =>
    obtain ⟨tail, htail, rfl⟩ := map_eq_ok_iff.mp h
    have hindex := Step.Spells.index hne mem_takeWhile (index?_eq_some_iff.mp hi)
    have hcons := Continues.cons hindex (ih htail)
    rwa [List.append_assoc, List.singleton_append, List.cons_append, ← hrest,
      List.takeWhile_append_dropWhile] at hcons
  | _ => simp_all

theorem parse_eq_ok_iff {s : String} {p : Path} :
    parse s = .ok p ↔
      ∃ name path, readHead s.toList = .ok (name, path) ∧ p = .key name :: path := by
  rw [parse, map_eq_ok_iff]
  simp only [parseHead, mapError_eq_ok_iff, Prod.exists, @eq_comm _ _ p]

theorem parse_eq_ok_iff_of_readable {s : String} {p : Path} :
    parse s = .ok p ↔ p.Readable ∧ p.Spells s.toList := by
  rw [parse_eq_ok_iff]
  constructor
  · rintro ⟨name, path, hread, rfl⟩
    obtain ⟨hname, hsteps, hwf⟩ := wellFormed_of_readHead hread
    have hspells := Spells.key name (continues_of_readSteps hsteps)
    rw [hname, String.toList_ofList, List.takeWhile_append_dropWhile, ← hname] at hspells
    exact ⟨hwf, hspells⟩
  · rintro ⟨hreadable, hspells⟩
    generalize s.toList = cs at hspells
    cases hspells with
    | root => exact hreadable.elim
    | key name hp =>
      have hsteps := readSteps_of_continues hp hreadable.2
      exact ⟨name, _, readHead_append hreadable.1 hp.stops hsteps, rfl⟩
    | index hp => exact hreadable.elim

/-! ## Printing gives the spelling without spare zeros -/

/-- The text without the zeros that stand behind an opening bracket and in front of another digit;
`opened` says that nothing but such zeros stands between a bracket and the text. -/
def trimFrom (opened : Bool) : List Char → List Char
  | [] => []
  | c :: cs =>
    if opened ∧ c = '0' ∧ cs.head?.any Char.isDigit then trimFrom true cs
    else c :: trimFrom (c == '[') cs

/-- The text with the leading zeros of its indices left out. -/
def trimIndices (s : String) : String :=
  String.ofList (trimFrom false s.toList)

theorem trimFrom_append {cs : List Char} (h : '[' ∉ cs) (ds : List Char) :
    trimFrom false (cs ++ ds) = cs ++ trimFrom false ds := by
  induction cs with
  | nil => rfl
  | cons c cs ih =>
    rw [List.mem_cons, not_or] at h
    have hopened : (c == '[') = false := beq_eq_false_iff_ne.mpr (Ne.symm h.1)
    rw [List.cons_append, trimFrom, if_neg (by simp), hopened, ih h.2]
    rfl

theorem digitChar_value {c : Char} (h : c.isDigit = true) :
    Nat.digitChar (c.toNat - '0'.toNat) = c := by
  have hbounds := Char.isDigit_iff_toNat.mp h
  rw [← Char.toNat_inj, Nat.toNat_digitChar_of_lt_ten (by simp at hbounds ⊢; omega)]
  simp at hbounds ⊢
  omega

theorem value_lt_ten {c : Char} (h : c.isDigit = true) : c.toNat - '0'.toNat < 10 := by
  have hbounds := Char.isDigit_iff_toNat.mp h
  simp at hbounds ⊢
  omega

theorem toDigits_value {c : Char} (h : c.isDigit = true) :
    Nat.toDigits 10 (c.toNat - '0'.toNat) = [c] := by
  rw [Nat.toDigits_of_lt_base (value_lt_ten h), digitChar_value h]

theorem value_pos {c : Char} (h : c.isDigit = true) (hc : c ≠ '0') : 0 < c.toNat - '0'.toNat := by
  have hbounds := Char.isDigit_iff_toNat.mp h
  have hne : c.toNat ≠ '0'.toNat := fun he => hc (Char.toNat_inj.mp he)
  omega

/-- Digits of which the first is no zero are the digits of the number that they denote. -/
theorem toDigits_ofDigitChars {c : Char} {ds : List Char} (hc : c.isDigit = true) (hzero : c ≠ '0')
    (hds : ∀ d ∈ ds, d.isDigit = true) :
    0 < Nat.ofDigitChars 10 (c :: ds) 0 ∧
      Nat.toDigits 10 (Nat.ofDigitChars 10 (c :: ds) 0) = c :: ds := by
  induction ds using List.reverseRecOn with
  | nil =>
    rw [Nat.ofDigitChars_cons, Nat.ofDigitChars_nil, Nat.mul_zero, Nat.zero_add]
    exact ⟨value_pos hc hzero, toDigits_value hc⟩
  | append_singleton ds d ih =>
    obtain ⟨hpos, hdigits⟩ := ih fun e he => hds e (List.mem_append_left _ he)
    have hd := hds d (List.mem_append_right _ (List.mem_singleton_self d))
    have hvalue : Nat.ofDigitChars 10 (c :: (ds ++ [d])) 0 =
        10 * Nat.ofDigitChars 10 (c :: ds) 0 + (d.toNat - '0'.toNat) := by
      rw [← List.cons_append, Nat.ofDigitChars_append, Nat.ofDigitChars_cons, Nat.ofDigitChars_nil]
    rw [hvalue, ← Nat.toDigits_append_toDigits (by decide) hpos (value_lt_ten hd), hdigits,
      toDigits_value hd]
    exact ⟨by omega, rfl⟩

/-- Digits behind a bracket lose their leading zeros, and then they are those of the number that
they denote. -/
theorem trimFrom_digits {digits : List Char} (hne : digits ≠ [])
    (hdigits : ∀ c ∈ digits, c.isDigit = true) (rest : List Char) :
    trimFrom true (digits ++ ']' :: rest) =
      Nat.toDigits 10 (Nat.ofDigitChars 10 digits 0) ++ ']' :: trimFrom false rest := by
  induction digits with
  | nil => exact absurd rfl hne
  | cons c ds ih =>
    obtain ⟨hc, hds⟩ := List.forall_mem_cons.mp hdigits
    have hbracket : '[' ∉ c :: ds := fun h => absurd (hdigits _ h) (by decide)
    have hkeep := trimFrom_append (List.not_mem_of_not_mem_cons hbracket) (']' :: rest)
    have hclose : trimFrom false (']' :: rest) = ']' :: trimFrom false rest := rfl
    have hopened : (c == '[') = false :=
      beq_eq_false_iff_ne.mpr fun he => hbracket (he ▸ List.mem_cons_self)
    rw [List.cons_append, trimFrom, hopened]
    split
    · rename_i hzero
      obtain ⟨-, rfl, hnext⟩ := hzero
      have hds' : ds ≠ [] := by
        rintro rfl
        simp at hnext
      rw [ih hds' hds, Nat.ofDigitChars_cons]
      rfl
    · rename_i hzero
      rw [hkeep, hclose]
      cases ds with
      | nil =>
        rw [Nat.ofDigitChars_cons, Nat.ofDigitChars_nil, Nat.mul_zero, Nat.zero_add,
          toDigits_value hc]
        rfl
      | cons d ds =>
        have hnonzero : c ≠ '0' := fun he => hzero ⟨rfl, he, hds d List.mem_cons_self⟩
        rw [(toDigits_ofDigitChars hc hnonzero hds).2]
        rfl

theorem not_mem_of_word {s : String} (h : ∀ c ∈ s.toList, isWord c = true) : '[' ∉ s.toList :=
  fun hmem => absurd (h _ hmem) (by decide)

theorem trimFrom_of_continues {p : Path} {cs : List Char} (h : Continues p cs)
    (hp : ∀ s ∈ p, s.WellFormed) : trimFrom false cs = continued p := by
  induction h with
  | nil => rfl
  | @cons s p cs ds hs hcontinues ih =>
    obtain ⟨hword, htail⟩ := List.forall_mem_cons.mp hp
    have hcons : continued (s :: p) = s.chars ++ continued p := rfl
    rw [hcons, ← ih htail]
    cases hs with
    | key name =>
      rw [trimFrom_append (by simpa using not_mem_of_word hword.2)]
      rfl
    | index hne hdigits hvalue =>
      rw [List.cons_append, List.cons_append, List.append_assoc, List.singleton_append, Step.chars,
        ← hvalue, List.append_assoc, List.singleton_append, List.cons_append,
        ← trimFrom_digits hne hdigits ds]
      rfl

theorem spells_chars {p : Path} : p.Spells p.chars := by
  have hcontinues (p : Path) : Continues p (continued p) := by
    induction p with
    | nil => exact .nil
    | cons s p ih =>
      refine .cons ?_ ih
      cases s with
      | key name => exact .key name
      | index i =>
        exact .index Nat.toDigits_ne_nil
          (fun c hc => Nat.isDigit_of_mem_toDigits (by decide) (by decide) hc)
          Nat.ofDigitChars_ten_toDigits
  cases p with
  | nil => exact .root
  | cons s p =>
    cases s with
    | key name => exact .key name (hcontinues p)
    | index i => exact .index (hcontinues _)

theorem render_of_spells {p : Path} {s : String} (hp : p.Readable) (h : p.Spells s.toList) :
    p.render = trimIndices s := by
  rw [render, trimIndices]
  congr 1
  generalize s.toList = cs at h
  cases h with
  | root => rfl
  | key name hcontinues =>
    rw [chars, trimFrom_append (not_mem_of_word hp.1.1), trimFrom_of_continues hcontinues hp.2]
  | index hcontinues => exact hp.elim

/-- **Reading a path accepts exactly its spellings**, those of paths that begin with an identifier
and go on with words and indices. Printing such a path gives one of them: the text that was read,
without the leading zeros of its indices. -/
theorem parse_eq_ok_iff_spells :
    (∀ (s : String) (p : Path), parse s = .ok p ↔ p.Readable ∧ p.Spells s.toList) ∧
      (∀ p : Path, p.Readable → parse p.render = .ok p) ∧
      ∀ (s : String) (p : Path), parse s = .ok p → p.render = trimIndices s := by
  refine ⟨fun s p => parse_eq_ok_iff_of_readable, fun p hp => ?_, fun s p h => ?_⟩
  · refine parse_eq_ok_iff_of_readable.mpr ⟨hp, ?_⟩
    rw [render, String.toList_ofList]
    exact spells_chars
  · obtain ⟨hp, hs⟩ := parse_eq_ok_iff_of_readable.mp h
    exact render_of_spells hp hs

/-- Leading zeros, a key of digits and an index without a key between. -/
theorem parse_eq_ok_iff_spells_of_zeros :
    let p : Path := [.key "_a", .key "0", .index 7, .index 0]
    p.Readable ∧ p.Spells "_a.0[007][00]".toList ∧ parse "_a.0[007][00]" = .ok p ∧
      p.render = "_a.0[7][0]" ∧ trimIndices "_a.0[007][00]" = "_a.0[7][0]" ∧
      parse "_a.0[7][0]" = .ok p := by
  intro p
  have hp : p.Readable := by decide
  have htext : "_a.0[007][00]".toList = "_a".toList ++ (('.' :: "0".toList) ++
      (('[' :: ['0', '0', '7'] ++ [']']) ++ (('[' :: ['0', '0'] ++ [']']) ++ []))) := by
    decide
  have hspells : p.Spells "_a.0[007][00]".toList := by
    rw [htext]
    exact .key "_a" (.cons (.key "0") (.cons (.index (by simp) (by simp) (by decide))
      (.cons (.index (by simp) (by simp) (by decide)) .nil)))
  have hrender : p.render = "_a.0[7][0]" := by decide
  have hparse := (parse_eq_ok_iff_spells.1 _ _).mpr ⟨hp, hspells⟩
  have htrim := parse_eq_ok_iff_spells.2.2 _ _ hparse
  have hback := parse_eq_ok_iff_spells.2.1 p hp
  rw [hrender] at htrim hback
  exact ⟨hp, hspells, hparse, hrender, htrim.symm, hback⟩

end Path

end DataBinding
