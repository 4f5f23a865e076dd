import DataBinding.Proofs.Expr.Forms

/-!
# What can be read is well-formed

* `Binding.wellFormed_of_read`, `Arg.wellFormed_of_read`, `Interpolation.wellFormed_of_read`: the
  parts.
* `Expr.wellFormed_ofPieces`: runs of characters become texts that are not empty and not side by
  side.
* `Expr.wellFormed_of_parse`: an expression that is read is well-formed.
-/

namespace DataBinding

open Text

/-! ## Constants -/

theorem keyword?_eq_none_iff {word : List Char} :
    keyword? word = none ↔ String.ofList word ∉ ["true", "false", "null"] := by
  have hlist : ["true", "false", "null"] =
      [['t', 'r', 'u', 'e'], ['f', 'a', 'l', 's', 'e'], ['n', 'u', 'l', 'l']].map String.ofList := by
    decide
  rw [hlist, List.mem_map_of_injective fun _ _ => String.ofList_injective]
  unfold keyword?
  split <;> simp_all

theorem isConstant_of_constant? {word rest : List Char} {v : Value}
    (h : constant? word rest = some v) : v.IsConstant := by
  have hkeyword : keyword? word = some v := by
    unfold constant? at h
    split at h
    · cases h
    · cases h
    · exact h
  unfold keyword? at hkeyword
  split at hkeyword
  · exact Option.some.inj hkeyword ▸ trivial
  · exact Option.some.inj hkeyword ▸ trivial
  · exact Option.some.inj hkeyword ▸ trivial
  · cases hkeyword

theorem isConstant_of_numberValue? {text : List Char} {v : Value}
    (h : numberValue? text = some v) : v.IsConstant := by
  unfold numberValue? at h
  split at h
  · split at h
    · split at h
      · rename_i hfinite
        obtain rfl := Option.some.inj h
        exact ((Bool.and_eq_true _ _).mp hfinite).1
      · cases h
    · cases h
  · obtain ⟨n, -, rfl⟩ := Option.map_eq_some_iff.mp h
    trivial

theorem isConstant_of_readNumber {cs rest : List Char} {v : Value}
    (h : readNumber cs = .ok (v, rest)) : v.IsConstant := by
  unfold readNumber at h
  simp only at h
  split at h
  · cases h
  · split at h
    · rename_i hv
      obtain ⟨rfl, -⟩ := Prod.mk.inj (Except.ok.inj h)
      exact isConstant_of_numberValue? hv
    · cases h

/-! ## References -/

theorem isBindingChar_of_isWord {c : Char} (h : isWord c = true) : isBindingChar c = true := by
  rw [isBindingChar, h]
  rfl

/-- Taking a run off the front of a longer run leaves what the longer run has behind it. -/
theorem dropWhile_takeWhile {p q : Char → Bool} (hpq : ∀ c, p c = true → q c = true)
    (cs : List Char) : (cs.takeWhile q).dropWhile p = (cs.dropWhile p).takeWhile q := by
  induction cs with
  | nil => rfl
  | cons c cs ih =>
    by_cases hp : p c = true
    · rw [List.takeWhile_cons_of_pos (hpq c hp), List.dropWhile_cons_of_pos hp,
        List.dropWhile_cons_of_pos hp, ih]
    · rw [List.dropWhile_cons_of_neg hp]
      refine Stops.dropWhile_eq ?_
      by_cases hq : q c = true
      · rw [List.takeWhile_cons_of_pos hq]
        exact stops_cons hp _
      · rw [List.takeWhile_cons_of_neg hq]
        exact stops_nil p

theorem takeWhile_takeWhile {p q : Char → Bool} (hpq : ∀ c, p c = true → q c = true)
    (cs : List Char) : (cs.takeWhile q).takeWhile p = cs.takeWhile p := by
  rw [List.takeWhile_takeWhile]
  congr 1
  funext c
  by_cases hp : p c = true
  · simp [hp, hpq c hp]
  · simp [hp]

theorem dropWhile_dropWhile {p q : Char → Bool} (hpq : ∀ c, p c = true → q c = true)
    (cs : List Char) : (cs.dropWhile p).dropWhile q = cs.dropWhile q := by
  induction cs with
  | nil => rfl
  | cons c cs ih =>
    by_cases hp : p c = true
    · rw [List.dropWhile_cons_of_pos hp, List.dropWhile_cons_of_pos (hpq c hp), ih]
    · rw [List.dropWhile_cons_of_neg hp]

/-- The reference that is read is the identifier and the path that the front of the text spells. -/
theorem Binding.readHead_of_read {cs rest : List Char} {b : Binding}
    (h : Binding.read cs = .ok (b, rest)) :
    Path.readHead (cs.takeWhile isBindingChar) = .ok (b.context, b.path) := by
  unfold Binding.read at h
  split at h
  · rename_i context path hhead
    obtain ⟨rfl, -⟩ := Prod.mk.inj (Except.ok.inj h)
    exact mapError_eq_ok_iff.mp hhead
  · cases h

theorem Binding.wellFormed_of_read {cs rest : List Char} {b : Binding}
    (h : Binding.read cs = .ok (b, rest)) : b.WellFormed :=
  (Path.wellFormed_of_readHead (Binding.readHead_of_read h)).2.2

theorem Path.readSteps_eq_nil {cs : List Char} (h : Path.readSteps cs = .ok []) : cs = [] := by
  unfold Path.readSteps at h
  split at h
  · rfl
  · split at h
    · cases h
    · obtain ⟨tail, -, htail⟩ := map_eq_ok_iff.mp h
      cases htail
  · split at h
    · cases h
    · split at h
      · cases h
      · split at h
        · obtain ⟨tail, -, htail⟩ := map_eq_ok_iff.mp h
          cases htail
        · cases h
    · cases h
  · cases h

/-- A word that is a constant by itself is not read as a reference. -/
theorem Binding.not_isKeyword_of_read {cs rest : List Char} {b : Binding}
    (h : Binding.read cs = .ok (b, rest))
    (hconst : constant? (cs.takeWhile isWord) (cs.dropWhile isWord) = none) : ¬ b.IsKeyword := by
  rintro ⟨hpath, hcontext⟩
  obtain ⟨hname, hsteps, -⟩ := Path.wellFormed_of_readHead (Binding.readHead_of_read h)
  -- without a path, the character behind the word cannot go on a reference
  rw [hpath, dropWhile_takeWhile fun _ => isBindingChar_of_isWord] at hsteps
  have hbehind := Path.readSteps_eq_nil hsteps
  rw [hname, takeWhile_takeWhile fun _ => isBindingChar_of_isWord] at hcontext
  refine absurd hcontext (keyword?_eq_none_iff.mp ?_)
  unfold constant? at hconst
  split at hconst
  · rename_i hdot
    rw [hdot] at hbehind
    cases hbehind
  · rename_i hbracket
    rw [hbracket] at hbehind
    cases hbehind
  · exact hconst

/-! ## Arguments -/

mutual

theorem Arg.wellFormed_of_read {cs rest : List Char} {a : Arg} (h : Gives (Arg.read cs) a rest) :
    a.WellFormed := by
  cases Arg.read_iff.mp h with
  | quoted => trivial
  | number _ _ hnumber => exact isConstant_of_readNumber hnumber
  | call hcs hstart hbehind hname hargs =>
    have hword := isWord_of_isWordStart hstart
    have hlt := length_lt_of_call hcs hword hbehind
    refine ⟨callName_takeWhile hname, ?_, Arg.allWellFormed_of_readArgs hargs⟩
    rw [String.toList_ofList, List.takeWhile_cons_of_pos hword]
    exact stops_cons (not_isDigit_of_isWordStart hstart) _
  | constant _ _ _ hconstant => exact isConstant_of_constant? hconstant
  | binding _ _ _ hconstant hbinding =>
    exact ⟨Binding.wellFormed_of_read hbinding, Binding.not_isKeyword_of_read hbinding hconstant⟩
termination_by (cs.length, 0)

theorem Arg.allWellFormed_of_readArgs {cs rest : List Char} {args : List Arg}
    (h : Gives (Arg.readArgs cs) args rest) : Arg.AllWellFormed args := by
  obtain ⟨rfl, -⟩ | hmore := Arg.of_readArgs h
  · trivial
  · exact Arg.allWellFormed_of_readMore hmore
termination_by (cs.length, 2)

theorem Arg.allWellFormed_of_readMore {cs rest : List Char} {args : List Arg}
    (h : Gives (Arg.readMore cs) args rest) : Arg.AllWellFormed args := by
  obtain ⟨a, ds, ha, ⟨rfl, -⟩ | ⟨es, as, rfl, hcomma, hmore⟩⟩ := Arg.of_readMore h
  · exact ⟨Arg.wellFormed_of_read ha, trivial⟩
  · have hlt := (length_lt_of_dropWhile_eq hcomma).trans ha.shorter
    exact ⟨Arg.wellFormed_of_read ha, Arg.allWellFormed_of_readMore hmore⟩
termination_by (cs.length, 1)

end

theorem Interpolation.wellFormed_of_read {cs rest : List Char} {i : Interpolation}
    (h : Gives (Interpolation.read cs) i rest) : i.WellFormed := by
  obtain ⟨name, args, es, rfl, hname, -, hargs⟩ | ⟨b, rfl, hb⟩ := Interpolation.of_read h
  · exact ⟨hname, Arg.allWellFormed_of_readArgs hargs⟩
  · exact Binding.wellFormed_of_read hb

/-! ## Texts -/

/-- The interpolations among elements of a text can be spelled. -/
def Atom.WellFormed : Atom → Prop
  | .char _ => True
  | .interpolation i => i.WellFormed

theorem wellFormed_of_readAtoms {cs : List Char} {as : List Atom} (h : readAtoms cs = .ok as) :
    ∀ a ∈ as, a.WellFormed := by
  fun_induction readAtoms cs generalizing as with
  | case1 =>
    obtain rfl := Except.ok.inj h
    exact nofun
  | case2 cs ih =>
    obtain ⟨tail, htail, rfl⟩ := map_eq_ok_iff.mp h
    exact List.forall_mem_cons.mpr ⟨trivial, ih htail⟩
  | case3 cs ih =>
    obtain ⟨tail, htail, rfl⟩ := map_eq_ok_iff.mp h
    exact List.forall_mem_cons.mpr ⟨trivial, List.forall_mem_cons.mpr ⟨trivial, ih htail⟩⟩
  | case4 cs e he => cases h
  | case5 cs i hi rest hrest ih =>
    obtain ⟨tail, htail, rfl⟩ := map_eq_ok_iff.mp h
    exact List.forall_mem_cons.mpr ⟨Interpolation.wellFormed_of_read ⟨i, hi, rfl, rfl⟩, ih htail⟩
  | case6 => cases h
  | case7 => cases h
  | case8 c cs _ _ _ ih =>
    obtain ⟨tail, htail, rfl⟩ := map_eq_ok_iff.mp h
    exact List.forall_mem_cons.mpr ⟨trivial, ih htail⟩

theorem Pieces.interpolation {i : Interpolation} {ps : List Piece} (hi : i.WellFormed)
    (h : Pieces ps) : Pieces (.interpolation i :: ps) :=
  ⟨List.forall_mem_cons.mpr ⟨hi, h.1⟩,
    List.isChain_cons.mpr ⟨fun _ _ => by simp [Piece.isText], h.2⟩⟩

/-- In front of pieces that begin with no text there may be a run of characters. -/
theorem Pieces.flush_append {ps : List Piece} (h : Pieces ps)
    (hhead : ∀ p, ps.head? = some p → p.isText = false) (passed : List Char) :
    Pieces (flush passed ++ ps) := by
  unfold flush
  split
  · exact h
  · rename_i hne
    refine ⟨List.forall_mem_cons.mpr ⟨?_, h.1⟩, List.isChain_cons.mpr ⟨fun p hp => ?_, h.2⟩⟩
    · exact fun hempty => hne (List.reverse_eq_nil_iff.mp (String.ofList_eq_empty_iff.mp hempty))
    · simp [hhead p hp]

/-- **Runs of characters become texts** that are not empty and not next to each other. -/
theorem pieces_piecesFrom {as : List Atom} (h : ∀ a ∈ as, a.WellFormed) (passed : List Char) :
    Pieces (piecesFrom passed as) := by
  induction as generalizing passed with
  | nil =>
    rw [piecesFrom, ← List.append_nil (flush passed)]
    exact Pieces.flush_append ⟨List.forall_mem_nil _, List.isChain_nil⟩ (by simp) passed
  | cons a as ih =>
    obtain ⟨ha, has⟩ := List.forall_mem_cons.mp h
    cases a with
    | char c => exact ih has (c :: passed)
    | interpolation i =>
      exact ((ih has []).interpolation ha).flush_append (by simp [Piece.isText]) passed

theorem Expr.wellFormed_ofPieces {ps : List Piece} (h : Pieces ps) :
    (Expr.ofPieces ps).WellFormed := by
  unfold Expr.ofPieces
  split
  · exact ⟨_, rfl⟩
  · exact ⟨_, rfl⟩
  · exact h.1 _ (List.mem_singleton_self _)
  · rename_i hnil htext hinterpolation
    refine ⟨?_, h⟩
    match ps with
    | [] => exact absurd rfl hnil
    | [.text s] => exact absurd rfl (htext s)
    | [.interpolation i] => exact absurd rfl (hinterpolation i)
    | _ :: _ :: _ => exact Nat.le_add_left 2 _

/-- **An expression that is read is well-formed.** -/
theorem Expr.wellFormed_of_parse {raw : String} {e : Expr} (h : Expr.parse raw = .ok e) :
    e.WellFormed := by
  obtain ⟨as, has, rfl⟩ := map_eq_ok_iff.mp (mapError_eq_ok_iff.mp h)
  exact Expr.wellFormed_ofPieces (pieces_piecesFrom (wellFormed_of_readAtoms has) [])

end DataBinding
