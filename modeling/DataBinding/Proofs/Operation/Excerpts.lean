import DataBinding.Proofs.Operation.Exact

/-!
# Excerpts of texts

`substr` counts characters, whatever their number of bytes. It gives the characters between two
positions if both lie within the text, and reports that they are out of bounds if not. Its positions
are 64-bit integers, so what it adds never leaves 64 bits, and the test for the bounds is the one
over all integers.

* `Params.index_of_nonneg`, `Params.index_of_neg`: a position that is an integer.
* `Excerpt`: the characters of a text from a position on, so many of them.
* `Strings.substr_of_read`: what `substr` gives once its positions are read.
* `Excerpt.join`, `Strings.exists_pieces`: excerpts that meet, from end to end, are the text.
* `Registry.call_substr`: what the calls of `substr` give, and that they cut the text exactly.
-/

namespace DataBinding

/-! ## Positions -/

namespace Params

variable {ps : List Value} {i : Nat} {n : Int64}

theorem index_of_nonneg (h : ps[i]? = some (.int n)) (hn : 0 ≤ n.toInt) :
    index ps i = .ok n.toInt.toNat := by
  rw [index, param, h]
  exact if_neg (Int.not_lt.mpr hn)

/-- No position is negative. -/
theorem index_of_neg (h : ps[i]? = some (.int n)) (hn : n.toInt < 0) :
    index ps i = Guarded.fail .outOfBounds := by
  rw [index, param, h]
  exact if_pos hn

end Params

theorem toInt_add_of_fits {i j : Int64} (h : Fits (i.toInt + j.toInt)) :
    (i + j).toInt = i.toInt + j.toInt := by
  obtain ⟨n, hn⟩ := fits_iff_exists.mp h
  rw [Int64.toInt_add, ← hn, Int64.toInt_bmod]

theorem toInt_toNat_lt (n : Int64) : n.toInt.toNat < 2 ^ 63 := by
  have hlt := n.toInt_lt
  omega

/-! ## Characters -/

/-- The characters of the text from the position `first` on, `length` of them. -/
structure Excerpt (text : String) (first length : Nat) (piece : String) : Prop where
  length_eq : piece.toList.length = length
  char : ∀ i < length, piece.toList[i]? = text.toList[first + i]?

section Excerpt

variable {text piece : String} {first length : Nat}

theorem excerpt_take_drop (h : first + length ≤ text.toList.length) :
    Excerpt text first length (String.ofList ((text.toList.drop first).take length)) where
  length_eq := by
    rw [String.toList_ofList, List.length_take, List.length_drop]
    omega
  char i hi := by
    rw [String.toList_ofList, List.getElem?_take, if_pos hi, List.getElem?_drop]

/-- There is one excerpt. -/
theorem Excerpt.toList_eq (h : Excerpt text first length piece) :
    piece.toList = (text.toList.drop first).take length := by
  refine List.ext_getElem? fun i => ?_
  rw [List.getElem?_take, List.getElem?_drop]
  split
  · rename_i hi
    exact h.char i hi
  · rename_i hi
    exact List.getElem?_eq_none (h.length_eq ▸ Nat.le_of_not_lt hi)

/-- **Three excerpts that meet and reach from end to end are the text.** -/
theorem Excerpt.join {a b c : String} {i j k : Nat} (ha : Excerpt text 0 i a)
    (hb : Excerpt text i j b) (hc : Excerpt text (i + j) k c)
    (hk : i + j + k = text.toList.length) : String.join [a, b, c] = text := by
  have hlast : c.toList = (text.toList.drop i).drop j := by
    rw [hc.toList_eq, List.drop_drop]
    refine List.take_of_length_le ?_
    rw [List.length_drop]
    omega
  refine String.toList_inj.mp ?_
  calc (String.join [a, b, c]).toList = a.toList ++ (b.toList ++ c.toList) := by
        simp
    _ = text.toList.take i ++ text.toList.drop i := by
        rw [ha.toList_eq, hb.toList_eq, hlast, List.take_append_drop, List.drop_zero]
    _ = text.toList := List.take_append_drop ..

end Excerpt

/-! ## Cutting -/

namespace Strings

variable {params : List Value} {text : String} {first length : Nat}

theorem excerpt_eq (hsize : first + length < UInt64.size) :
    excerpt text first length = if first + length ≤ text.toList.length
      then .ok (.string (String.ofList ((text.toList.drop first).take length)))
      else Guarded.fail .outOfBounds := by
  rw [excerpt, stop?_eq_some_iff.mpr ⟨rfl, hsize⟩]
  simp only [bind, Except.bind, pure, Except.pure, Bool.or_eq_true, decide_eq_true_eq]
  by_cases hle : first + length ≤ text.toList.length
  · rw [if_neg (by omega), if_pos hle]
  · rw [if_pos (by omega), if_neg hle]

/-- `substr` once its parameters are read. -/
theorem substr_of_read (htext : Params.read Value.string? params 0 = .ok text)
    (hfirst : Params.index params 1 = .ok first)
    (hlength : Params.indexD params 2 (.ok (text.toList.length - first)) = .ok length) :
    substr params = excerpt text first length := by
  simp only [substr, htext, hfirst, hlength, bind, Except.bind]

/-- A position that cannot be read is reported. -/
theorem substr_of_bad_first {halt : Halt} (htext : Params.read Value.string? params 0 = .ok text)
    (hfirst : Params.index params 1 = .error halt) : substr params = .error halt := by
  simp only [substr, htext, hfirst, bind, Except.bind]

theorem substr_of_bad_length {halt : Halt} (htext : Params.read Value.string? params 0 = .ok text)
    (hfirst : Params.index params 1 = .ok first)
    (hlength : Params.indexD params 2 (.ok (text.toList.length - first)) = .error halt) :
    substr params = .error halt := by
  simp only [substr, htext, hfirst, hlength, bind, Except.bind]

/-- The result is the excerpt if it lies within the text, over all integers, and else an error. -/
def GivesExcerpt (r : Except OperationError Value) (text : String) (first length : Int) : Prop :=
  (0 ≤ first ∧ 0 ≤ length ∧ first + length ≤ text.toList.length →
    ∃ piece, Excerpt text first.toNat length.toNat piece ∧ r = .ok (.string piece)) ∧
  (¬ (0 ≤ first ∧ 0 ≤ length ∧ first + length ≤ text.toList.length) → r = .error .outOfBounds)

theorem GivesExcerpt.unique {r r' : Except OperationError Value} {text : String}
    {first length : Int} (h : GivesExcerpt r text first length)
    (h' : GivesExcerpt r' text first length) : r = r' := by
  by_cases hin : 0 ≤ first ∧ 0 ≤ length ∧ first + length ≤ text.toList.length
  · obtain ⟨piece, hpiece, hr⟩ := h.1 hin
    obtain ⟨piece', hpiece', hr'⟩ := h'.1 hin
    have hsame : piece = piece' :=
      String.toList_inj.mp (hpiece.toList_eq.trans hpiece'.toList_eq.symm)
    rw [hr, hr', hsame]
  · rw [h.2 hin, h'.2 hin]

/-- What is cut out between positions that are read and do not leave 64 bits. The rest of a text from
a position behind its end has a length below zero, which counts as zero. -/
theorem givesExcerpt_of_read {a b : Int} (ha : 0 ≤ a) (hb : 0 ≤ b ∨ text.toList.length < a)
    (htext : Params.read Value.string? params 0 = .ok text)
    (hfirst : Params.index params 1 = .ok a.toNat)
    (hlength : Params.indexD params 2 (.ok (text.toList.length - a.toNat)) = .ok b.toNat)
    (hsize : a.toNat + b.toNat < UInt64.size) :
    GivesExcerpt ((substr params).mapError Halt.toError) text a b := by
  have hcut := (substr_of_read htext hfirst hlength).trans (excerpt_eq hsize)
  refine ⟨fun hin => ?_, fun hout => ?_⟩
  · have hle : a.toNat + b.toNat ≤ text.toList.length := by omega
    rw [hcut, if_pos hle]
    exact ⟨_, excerpt_take_drop hle, rfl⟩
  · rw [hcut, if_neg (by omega)]
    rfl

theorem givesExcerpt_substr (text : String) (first length : Int64) :
    GivesExcerpt ((substr [.string text, .int first, .int length]).mapError Halt.toError) text
      first.toInt length.toInt := by
  by_cases hfirst : 0 ≤ first.toInt
  · by_cases hlength : 0 ≤ length.toInt
    · have hsize : first.toInt.toNat + length.toInt.toNat < UInt64.size := by
        have hf := toInt_toNat_lt first
        have hl := toInt_toNat_lt length
        rw [UInt64.size]
        omega
      exact givesExcerpt_of_read hfirst (Or.inl hlength) rfl (Params.index_of_nonneg rfl hfirst)
        (Params.index_of_nonneg rfl hlength) hsize
    · have hbad : substr [.string text, .int first, .int length] =
          Guarded.fail .outOfBounds :=
        substr_of_bad_length rfl (Params.index_of_nonneg rfl hfirst)
          (Params.index_of_neg rfl (Int.not_le.mp hlength))
      refine ⟨fun hin => absurd hin.2.1 hlength, fun _ => ?_⟩
      rw [hbad]
      rfl
  · refine ⟨fun hin => absurd hin.1 hfirst, fun _ => ?_⟩
    rw [substr_of_bad_first rfl (Params.index_of_neg rfl (Int.not_le.mp hfirst))]
    rfl

/-- Without a length the rest of the text is given. -/
theorem givesExcerpt_rest (first : Int64) (hsize : text.toList.length < UInt64.size) :
    GivesExcerpt ((substr [.string text, .int first]).mapError Halt.toError) text first.toInt
      (text.toList.length - first.toInt) := by
  by_cases hfirst : 0 ≤ first.toInt
  · have hlt := toInt_toNat_lt first
    have hnat : ((text.toList.length : Int) - first.toInt).toNat =
        text.toList.length - first.toInt.toNat := by omega
    refine givesExcerpt_of_read hfirst (by omega) rfl (Params.index_of_nonneg rfl hfirst) ?_ ?_
    · rw [hnat]
      rfl
    · rw [UInt64.size] at *
      omega
  · refine ⟨fun hin => absurd hin.1 hfirst, fun _ => ?_⟩
    rw [substr_of_bad_first rfl (Params.index_of_neg rfl (Int.not_le.mp hfirst))]
    rfl

/-- From a position outside the text nothing is given. -/
theorem substr_rest_outside (first : Int64)
    (hout : ¬ (0 ≤ first.toInt ∧ first.toInt ≤ text.toList.length)) :
    (substr [.string text, .int first]).mapError Halt.toError = .error .outOfBounds := by
  by_cases hsize : text.toList.length < UInt64.size
  · exact (givesExcerpt_rest first hsize).2 (by omega)
  · -- so long a text ends before no position that is not negative
    have hlt := toInt_toNat_lt first
    rw [UInt64.size] at hsize
    rw [substr_of_bad_first rfl (Params.index_of_neg rfl (by omega))]
    rfl

/-- Three pieces that meet and reach from end to end are the text. -/
theorem exists_pieces (hfits : Fits text.toList.length) {i j : Int64} (hi : 0 ≤ i.toInt)
    (hj : 0 ≤ j.toInt) (hij : i.toInt + j.toInt ≤ text.toList.length) : ∃ a b c,
      String.join [a, b, c] = text ∧
      (substr [.string text, .int 0, .int i]).mapError Halt.toError = .ok (.string a) ∧
      (substr [.string text, .int i, .int j]).mapError Halt.toError = .ok (.string b) ∧
      (substr [.string text, .int (i + j)]).mapError Halt.toError = .ok (.string c) := by
  have hmost := hfits.2
  simp only [Int64.toInt_maxValue] at hmost
  have hadd : (i + j).toInt = i.toInt + j.toInt := toInt_add_of_fits ⟨by
    rw [Int64.toInt_minValue]
    omega, hij.trans hfits.2⟩
  have hsize : text.toList.length < UInt64.size := by
    rw [UInt64.size]
    omega
  have hstart : (0 : Int64).toInt + i.toInt ≤ text.toList.length := by
    change 0 + _ ≤ _
    omega
  obtain ⟨a, ha, hcalla⟩ := (givesExcerpt_substr text 0 i).1 ⟨by decide, hi, hstart⟩
  obtain ⟨b, hb, hcallb⟩ := (givesExcerpt_substr text i j).1 ⟨hi, hj, hij⟩
  obtain ⟨c, hc, hcallc⟩ := (givesExcerpt_rest (i + j) hsize).1 ⟨by omega, by omega, by omega⟩
  rw [hadd, Int.toNat_add hi hj] at hc
  exact ⟨a, b, c, ha.join hb hc (by omega), hcalla, hcallb, hcallc⟩

/-- What the calls of `substr` give for a text. -/
structure Cuts (call : String → List Value → Except OperationError Value) (text : String) :
    Prop where
  piece : ∀ first length : Int64, GivesExcerpt
    (call "substr" [.string text, .int first, .int length]) text first.toInt length.toInt
  /-- Without a length, the length is that of the rest. -/
  rest : ∀ first length : Int64, 0 ≤ first.toInt → first.toInt ≤ text.toList.length →
    length.toInt = text.toList.length - first.toInt →
      call "substr" [.string text, .int first] =
        call "substr" [.string text, .int first, .int length]
  rest_outside : ∀ first : Int64, ¬ (0 ≤ first.toInt ∧ first.toInt ≤ text.toList.length) →
    call "substr" [.string text, .int first] = .error .outOfBounds
  /-- Nothing is lost between three pieces, nor comes twice. The length of a text in memory is a
  64-bit integer. -/
  whole : Fits text.toList.length → ∀ i j : Int64, 0 ≤ i.toInt → 0 ≤ j.toInt →
    i.toInt + j.toInt ≤ text.toList.length → ∃ a b c,
      call "substr" [.string text, .int 0, .int i] = .ok (.string a) ∧
      call "substr" [.string text, .int i, .int j] = .ok (.string b) ∧
      call "substr" [.string text, .int (i + j)] = .ok (.string c) ∧
      call "concat" [.string a, .string b, .string c] = .ok (.string text)

end Strings

namespace Registry

open Strings

theorem call_substr_eq {params : List Value}
    (haccepts : (Arity.range 2 (some 3)).accepts params.length = true) :
    builtin.call "substr" params = (substr params).mapError Halt.toError :=
  call_of_mem (b := ⟨"substr", .range 2 (some 3), substr⟩)
    (by simp [builtins, Strings.operations]) haccepts

theorem call_concat_eq (a b c : String) :
    builtin.call "concat" [.string a, .string b, .string c] =
      .ok (.string (String.join [a, b, c])) :=
  call_of_mem (b := ⟨"concat", .range 1 none, concat⟩)
    (by simp [builtins, Strings.operations]) rfl

/-- **`substr` counts characters and cuts texts exactly.** For every text and all 64-bit integers it
gives the characters from a position on, so many as are asked for, if they lie within the text over
all integers, and else reports that they are out of bounds. Without a length it gives the rest of
the text. So three pieces that meet and reach from end to end are the text. -/
theorem call_substr (text : String) : Cuts builtin.call text where
  piece first length := by
    rw [call_substr_eq rfl]
    exact givesExcerpt_substr text first length
  rest first length hfirst hle hlength := by
    have hsize : text.toList.length < UInt64.size := by
      have hf := toInt_toNat_lt first
      have hl := toInt_toNat_lt length
      rw [UInt64.size]
      omega
    rw [call_substr_eq rfl, call_substr_eq rfl]
    exact (hlength ▸ givesExcerpt_rest first hsize).unique (givesExcerpt_substr text first length)
  rest_outside first hout := by
    rw [call_substr_eq rfl]
    exact substr_rest_outside first hout
  whole hfits i j hi hj hij := by
    obtain ⟨a, b, c, hjoin, ha, hb, hc⟩ := exists_pieces hfits hi hj hij
    refine ⟨a, b, c, (call_substr_eq rfl).trans ha, (call_substr_eq rfl).trans hb,
      (call_substr_eq rfl).trans hc, ?_⟩
    rw [call_concat_eq, hjoin]

/-- Of a text with a character of two bytes the second and the third character are cut out; the
greatest positions are out of bounds; and the text is put together again. -/
theorem call_substr_of_wide :
    let text := "héllo"
    builtin.call "substr" [.string text, .int 1, .int 2] = .ok (.string "él") ∧
      builtin.call "substr" [.string text, .int Int64.maxValue, .int Int64.maxValue] =
        .error .outOfBounds ∧
      builtin.call "substr" [.string text, .int 3] =
        builtin.call "substr" [.string text, .int 3, .int 2] ∧
      builtin.call "substr" [.string text, .int 6] = .error .outOfBounds ∧
      Fits text.toList.length ∧ ∃ a b c,
        builtin.call "substr" [.string text, .int 0, .int 1] = .ok (.string a) ∧
        builtin.call "substr" [.string text, .int 1, .int 2] = .ok (.string b) ∧
        builtin.call "substr" [.string text, .int (1 + 2)] = .ok (.string c) ∧
        builtin.call "concat" [.string a, .string b, .string c] = .ok (.string text) := by
  intro text
  have hlength : text.toList.length = 5 := by decide
  have hcuts := call_substr text
  obtain ⟨piece, hpiece, hcall⟩ := (hcuts.piece 1 2).1 (by rw [hlength]; decide)
  have hsame : piece = "él" := String.toList_inj.mp (hpiece.toList_eq.trans (by decide))
  refine ⟨hsame ▸ hcall, (hcuts.piece _ _).2 (by rw [hlength]; decide),
    hcuts.rest 3 2 (by decide) (by rw [hlength]; decide) (by rw [hlength]; decide),
    hcuts.rest_outside 6 (by rw [hlength]; decide), by rw [hlength]; decide, ?_⟩
  exact hcuts.whole (by rw [hlength]; decide) 1 2 (by decide) (by decide) (by rw [hlength]; decide)

end Registry

end DataBinding
