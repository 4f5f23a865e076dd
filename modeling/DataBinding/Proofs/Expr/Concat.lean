import DataBinding.Expr.Eval
import DataBinding.Proofs.Expr.Nested

/-!
# One text behind another

Two texts that can be read are read one behind the other as they are read by themselves, unless the
first ends in a character that may begin an escape or an interpolation. Where a text piece ends the
first and one begins the second, they become one. The whole then has the text of the first followed
by that of the second.

* `Interpolation.read_alike`: an interpolation ends where it ends, whatever stands behind it.
* `readAtoms_append`, `piecesFrom_append`: elements and pieces of the whole.
* `Expr.pieces`, `Piece.join`: an expression as pieces, and pieces one behind the other.
* `Expr.text_eval`: the text of a value, piece by piece.
* `Expr.parse_append`: reading and evaluating the whole.
-/

namespace DataBinding

open Text

variable {cs ds rest : List Char}

/-! ## Interpolations -/

/-- The word that a reference begins with is its context, and no call. -/
theorem Binding.word_of_read {b : Binding} (h : Binding.read cs = .ok (b, rest))
    (hrest : Stops goesOn rest) :
    cs.takeWhile isWord = b.context.toList ∧ ∀ es, cs.dropWhile isWord ≠ '(' :: es := by
  obtain ⟨hname, -⟩ := Path.wellFormed_of_readHead (Binding.readHead_of_read h)
  refine ⟨?_, fun es hes => ?_⟩
  · rw [hname, String.toList_ofList, takeWhile_takeWhile fun _ => isBindingChar_of_isWord]
  · have hbehind := dropWhile_dropWhile (p := isWord) (fun _ => isBindingChar_of_isWord) cs
    rw [hes, List.dropWhile_cons_of_neg (by decide), ← Binding.rest_eq h] at hbehind
    exact hrest '(' (by rw [← hbehind]; rfl) (by decide)

/-- **An interpolation is read alike** in front of texts that begin alike. -/
theorem Interpolation.read_alike {i : Interpolation} (h : Gives (Interpolation.read cs) i rest)
    (hrest : Stops goesOn rest) : ∃ used, cs = used ++ rest ∧
      ∀ rest', rest'.head? = rest.head? → Gives (Interpolation.read (used ++ rest')) i rest' := by
  rcases Interpolation.of_read h with ⟨name, args, es, rfl, hname, hskip, hargs⟩ | ⟨b, rfl, hb⟩
  · obtain ⟨used, rfl, hused⟩ := Arg.readArgs_alike hargs
    rw [← List.cons_append, ← List.append_assoc] at hskip
    refine ⟨_, takeWhile_blank_append hskip, fun rest' hhead => ?_⟩
    have hskip' := skipBlank_alike hskip hhead
    rw [List.append_assoc name.toList, List.cons_append] at hskip'
    exact Interpolation.read_name hname hskip' (hused rest')
  · have hskip : skipBlank cs = (skipBlank cs).takeWhile isBindingChar ++ rest := by
      rw [Binding.rest_eq hb, List.takeWhile_append_dropWhile]
    refine ⟨_, takeWhile_blank_append hskip, fun rest' hhead => ?_⟩
    have hstop := hrest.alike hhead
    have hread := Binding.read_takeWhile hb (hstop.mono fun _ => goesOn_of_isBindingChar)
    rw [← skipBlank_alike hskip hhead] at hread
    obtain ⟨hword, hcall⟩ := Binding.word_of_read hread hstop
    refine Interpolation.read_binding (fun hnil => ?_) hcall hread
    obtain ⟨c, hc, -⟩ := (Binding.wellFormed_of_read hb).1.2
    rw [hword] at hnil
    rw [hnil] at hc
    cases hc

theorem blanks_of_close (h : skipBlank ds = '}' :: rest) :
    ds = ds.takeWhile isBlank ++ ['}'] ++ rest :=
  takeWhile_blank_append h

theorem stops_of_close (h : skipBlank ds = '}' :: rest) : Stops goesOn ds := by
  rw [blanks_of_close h, List.append_assoc]
  exact (stops_blanks mem_takeWhile).append (stops_cons (by decide) _)

/-- Up to its closing brace it is read in front of any text. -/
theorem Interpolation.read_append {i : Interpolation} (h : Gives (Interpolation.read cs) i ds)
    (hclose : skipBlank ds = '}' :: rest) (more : List Char) :
    Gives (Interpolation.read (cs ++ more)) i (ds ++ more) := by
  obtain ⟨used, rfl, hused⟩ := Interpolation.read_alike h (stops_of_close hclose)
  have hne : ds ≠ [] := by
    rintro rfl
    cases hclose
  rw [List.append_assoc]
  exact hused _ (List.head?_append_of_ne_nil ds hne)

theorem skipBlank_append (h : skipBlank ds = '}' :: rest) (more : List Char) :
    skipBlank (ds ++ more) = '}' :: (rest ++ more) := by
  conv_lhs => rw [blanks_of_close h]
  rw [List.append_assoc]
  exact skipBlank_behind (by decide)

theorem suffix_of_read {i : Interpolation} (h : Gives (Interpolation.read cs) i ds)
    (hclose : skipBlank ds = '}' :: rest) : rest <:+ cs := by
  obtain ⟨used, rfl, -⟩ := Interpolation.read_alike h (stops_of_close hclose)
  exact List.IsSuffix.trans ⟨_, (blanks_of_close hclose).symm⟩ (List.suffix_append used ds)

/-! ## Elements of a text -/

/-- The text ends in no character with which an escape or an interpolation may begin. -/
def Complete (cs : List Char) : Prop :=
  ∀ c, cs.getLast? = some c → c ≠ '\\' ∧ c ≠ '@'

theorem Complete.of_suffix (h : Complete cs) (hds : ds <:+ cs) : Complete ds := by
  obtain ⟨used, rfl⟩ := hds
  intro c hc
  refine h c ?_
  rw [List.getLast?_append, hc]
  rfl

/-- A character that begins no escape and no interpolation by itself begins none in front of a text
behind it. -/
theorem Complete.ne_cons_append {c d : Char} (h : Complete (c :: cs)) (hc : c = '\\' ∨ c = '@')
    (hne : ∀ es, cs ≠ d :: es) (es : List Char) : cs ++ ds ≠ d :: es := by
  cases cs with
  | nil => exact absurd hc (not_or.mpr (h c rfl))
  | cons e cs =>
    intro he
    exact hne cs (by rw [(List.cons.inj he).1])

/-- **Elements of a text that is complete** come in front of those of any text behind it. -/
theorem readAtoms_append {as : List Atom} (h : readAtoms cs = .ok as) (hend : Complete cs)
    (ds : List Char) : readAtoms (cs ++ ds) = (readAtoms ds).map (as ++ ·) := by
  fun_induction readAtoms cs generalizing as with
  | case1 =>
    obtain rfl := Except.ok.inj h
    rw [List.nil_append]
    cases readAtoms ds <;> rfl
  | case2 cs ih =>
    obtain ⟨as, has, rfl⟩ := map_eq_ok_iff.mp h
    have hsuffix : cs <:+ '\\' :: '\\' :: cs := List.suffix_append ['\\', '\\'] cs
    rw [List.cons_append, List.cons_append, readAtoms, ih has (hend.of_suffix hsuffix)]
    exact map_map_cons _ [Atom.char '\\'] as
  | case3 cs ih =>
    obtain ⟨as, has, rfl⟩ := map_eq_ok_iff.mp h
    have hsuffix : cs <:+ '\\' :: '@' :: '{' :: cs := List.suffix_append ['\\', '@', '{'] cs
    rw [List.cons_append, List.cons_append, List.cons_append, readAtoms,
      ih has (hend.of_suffix hsuffix)]
    exact map_map_cons _ [Atom.char '@', Atom.char '{'] as
  | case4 => cases h
  | case5 cs i hi rest hclose ih =>
    obtain ⟨as, has, rfl⟩ := map_eq_ok_iff.mp h
    have hgives : Gives (Interpolation.read cs) i.value i.rest := ⟨i, hi, rfl, rfl⟩
    have hsuffix : rest <:+ '@' :: '{' :: cs :=
      (suffix_of_read hgives hclose).trans (List.suffix_append ['@', '{'] cs)
    rw [List.cons_append, List.cons_append,
      readAtoms_interpolation (Interpolation.read_append hgives hclose ds)
        (skipBlank_append hclose ds), ih has (hend.of_suffix hsuffix)]
    exact map_map_cons _ [Atom.interpolation i.value] as
  | case6 => cases h
  | case7 => cases h
  | case8 c cs hslash hescape hbrace ih =>
    obtain ⟨as, has, rfl⟩ := map_eq_ok_iff.mp h
    have htail := hend.of_suffix (List.suffix_cons c cs)
    rw [List.cons_append, readAtoms, ih has htail]
    · exact map_map_cons _ [Atom.char c] as
    · intro es hc
      exact hend.ne_cons_append (.inl hc) (fun es => hslash es hc) es
    · intro es hc hes
      cases cs with
      | nil => exact absurd (.inl hc) (not_or.mpr (hend c rfl))
      | cons d cs =>
        obtain ⟨rfl, hbehind⟩ := List.cons.inj hes
        exact htail.ne_cons_append (.inr rfl) (fun es he => hescape es hc (by rw [he])) es hbehind
    · intro es hc
      exact hend.ne_cons_append (.inr hc) (fun es => hbrace es hc) es

/-! ## Pieces -/

/-- Pieces one behind the other; a text that ends the first ones and a text that begins the others
are one. -/
def Piece.join : List Piece → List Piece → List Piece
  | [], qs => qs
  | [.text s], .text t :: qs => .text (s ++ t) :: qs
  | p :: ps, qs => p :: join ps qs

/-- The expression as pieces: a constant is the text that it has in a template, if that is not
empty. -/
def Expr.pieces : Expr → List Piece
  | .literal v => if v.text = "" then [] else [.text v.text]
  | .single i => [.interpolation i]
  | .template ps => ps

theorem Piece.text_join_text (s t : String) (qs : List Piece) :
    Piece.join [.text s] (.text t :: qs) = .text (s ++ t) :: qs := by
  simp [Piece.join]

theorem Piece.text_join_interpolation (s : String) (i : Interpolation) (qs : List Piece) :
    Piece.join [.text s] (.interpolation i :: qs) = .text s :: .interpolation i :: qs := by
  simp [Piece.join]

theorem flush_cons (c : Char) (cs : List Char) :
    flush (c :: cs) = [.text (String.ofList (c :: cs).reverse)] :=
  rfl

theorem Piece.join_flush (passed : List Char) (i : Interpolation) (ps qs : List Piece) :
    Piece.join (flush passed ++ .interpolation i :: ps) qs =
      flush passed ++ .interpolation i :: Piece.join ps qs := by
  cases passed <;> simp [Piece.join, flush]

theorem Piece.join_text_join (s t : String) (qs : List Piece) :
    Piece.join [.text s] (Piece.join [.text t] qs) = Piece.join [.text (s ++ t)] qs := by
  cases qs with
  | nil => simp [Piece.join]
  | cons q qs =>
    cases q with
    | text u => simp only [Piece.text_join_text, String.append_assoc]
    | interpolation i => simp only [Piece.text_join_interpolation, Piece.text_join_text]

/-- The characters passed are in front of what comes. -/
theorem piecesFrom_eq_join (passed : List Char) (as : List Atom) :
    piecesFrom passed as = Piece.join (flush passed) (piecesFrom [] as) := by
  induction as generalizing passed with
  | nil => cases passed <;> simp [piecesFrom, flush, Piece.join]
  | cons a as ih =>
    cases a with
    | char c =>
      rw [piecesFrom, piecesFrom, ih (c :: passed), ih [c]]
      cases passed with
      | nil => rfl
      | cons d passed =>
        rw [flush_cons, flush_cons, flush_cons, Piece.join_text_join, ← String.ofList_append,
          List.reverse_cons]
        rfl
    | interpolation i =>
      cases passed with
      | nil => rfl
      | cons d passed => exact (Piece.text_join_interpolation ..).symm

/-- **Pieces of elements one behind the other** are joined. -/
theorem piecesFrom_append (passed : List Char) (as bs : List Atom) :
    piecesFrom passed (as ++ bs) = Piece.join (piecesFrom passed as) (piecesFrom [] bs) := by
  induction as generalizing passed with
  | nil => exact piecesFrom_eq_join passed bs
  | cons a as ih =>
    cases a with
    | char c => exact ih (c :: passed)
    | interpolation i =>
      rw [List.cons_append, piecesFrom, piecesFrom, ih []]
      exact (Piece.join_flush passed i _ _).symm

theorem pieces_ofPieces {ps : List Piece} (h : Pieces ps) : (Expr.ofPieces ps).pieces = ps := by
  unfold Expr.ofPieces
  split
  · rfl
  · exact if_neg (h.1 _ (List.mem_singleton_self _))
  · rfl
  · rfl

/-! ## Texts of values -/

/-- **The text of a value** is made up of the texts of the pieces. -/
theorem Expr.text_eval (env : Env) (e : Expr) :
    (e.eval env).value.text = (Piece.evalAll env e.pieces).value := by
  cases e with
  | literal v =>
    change v.text = (Piece.evalAll env (if v.text = "" then [] else [.text v.text])).value
    split
    · assumption
    · exact String.append_empty.symm
  | single i => exact String.append_empty.symm
  | template ps =>
    cases ps with
    | nil => rfl
    | cons p ps => rfl

theorem Piece.evalAll_cons (env : Env) (p : Piece) (ps : List Piece) :
    (Piece.evalAll env (p :: ps)).value = (p.eval env).value ++ (Piece.evalAll env ps).value :=
  rfl

theorem Piece.evalAll_join (env : Env) (ps qs : List Piece) :
    (Piece.evalAll env (Piece.join ps qs)).value =
      (Piece.evalAll env ps).value ++ (Piece.evalAll env qs).value := by
  fun_induction Piece.join ps qs with
  | case1 qs => exact String.empty_append.symm
  | case2 s t qs =>
    change s ++ t ++ _ = s ++ "" ++ (t ++ _)
    rw [String.append_empty, String.append_assoc]
  | case3 p ps qs _ ih => rw [Piece.evalAll_cons, Piece.evalAll_cons, ih, String.append_assoc]

/-- **Texts one behind the other** are read as they are read by themselves, if the first is
complete: the pieces of the whole are those of the one and those of the other, joined, and the value
has the text of the one followed by that of the other, whatever it is evaluated against. -/
theorem Expr.parse_append {a b : String} {d e : Expr} (ha : Expr.parse a = .ok d)
    (hb : Expr.parse b = .ok e) (hend : Complete a.toList) :
    ∃ whole, Expr.parse (a ++ b) = .ok whole ∧ whole.pieces = Piece.join d.pieces e.pieces ∧
      ∀ env, (whole.eval env).value.text = (d.eval env).value.text ++ (e.eval env).value.text := by
  obtain ⟨as, has, rfl⟩ := map_eq_ok_iff.mp (mapError_eq_ok_iff.mp ha)
  obtain ⟨bs, hbs, rfl⟩ := map_eq_ok_iff.mp (mapError_eq_ok_iff.mp hb)
  have hwhole : readAtoms (a ++ b).toList = .ok (as ++ bs) := by
    rw [String.toList_append, readAtoms_append has hend, hbs]
    rfl
  have hpieces (cs : List Char) (as : List Atom) (h : readAtoms cs = .ok as) :
      (Expr.ofPieces (piecesFrom [] as)).pieces = piecesFrom [] as :=
    pieces_ofPieces (pieces_piecesFrom (wellFormed_of_readAtoms h) [])
  refine ⟨Expr.ofPieces (piecesFrom [] (as ++ bs)), ?_, ?_, fun env => ?_⟩
  · rw [Expr.parse, hwhole]
    rfl
  · rw [hpieces _ _ hwhole, hpieces _ _ has, hpieces _ _ hbs, piecesFrom_append]
  · rw [Expr.text_eval, Expr.text_eval, Expr.text_eval, hpieces _ _ hwhole, hpieces _ _ has,
      hpieces _ _ hbs, piecesFrom_append, Piece.evalAll_join]

/-- With a brace in a string of the first text, and an escape that begins the second. -/
theorem Expr.parse_append_of_escapes :
    let call : Piece := .interpolation (.call "f" [.literal (.string "\x7d")])
    let reference : Piece := .interpolation (.binding ⟨"y", []⟩)
    let first := "a\\\\@\x7bf('\x7d')\x7d-"
    let second := "\\@\x7bc@\x7by\x7d"
    Expr.parse first = .ok (.template [.text "a\\", call, .text "-"]) ∧
      Expr.parse second = .ok (.template [.text "@\x7bc", reference]) ∧ Complete first.toList ∧
      ∃ whole, Expr.parse (first ++ second) = .ok whole ∧
        whole.pieces = [.text "a\\", call, .text "-@\x7bc", reference] := by
  intro call reference first second
  have hfirst : Expr.parse first = .ok (.template [.text "a\\", call, .text "-"]) :=
    Expr.parse_render_of_wellFormed (e := .template [.text "a\\", call, .text "-"])
      (by decide)
  have hsecond : Expr.parse second = .ok (.template [.text "@\x7bc", reference]) :=
    Expr.parse_render_of_wellFormed (e := .template [.text "@\x7bc", reference])
      (by decide)
  have hend : Complete first.toList := by
    intro c hc
    obtain rfl : c = '-' := Option.some.inj (hc.symm.trans (by decide))
    decide
  obtain ⟨whole, hwhole, hpieces, -⟩ := Expr.parse_append hfirst hsecond hend
  exact ⟨hfirst, hsecond, hend, whole, hwhole, hpieces⟩

/-- A text that ends in a backslash takes the interpolation behind it for an escape. -/
example : Expr.parse "\\" = .ok (.literal (.string "\\")) ∧
    Expr.parse ("\\" ++ "@\x7ba\x7d") = .ok (.literal (.string "@\x7ba\x7d")) :=
  ⟨by cbv, by cbv⟩

end DataBinding
