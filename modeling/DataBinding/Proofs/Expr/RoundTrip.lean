import DataBinding.Proofs.Expr.Image
import DataBinding.Proofs.Expr.Literals

/-!
# Well-formed expressions read back

* `Arg.read_chars`, `Interpolation.read_chars`: an argument or an interpolation reads back in front
  of any text that cannot go on with it.
* `readAtoms_escapeText`: a text reads back as its characters.
* `Expr.parse_render`: reading undoes writing, on exactly the expressions that can be read.
-/

namespace DataBinding

open Text

variable {cs rest : List Char}

/-! ## References -/

theorem isBindingChar_of_mem_continued {path : Path} (h : ∀ s ∈ path, s.WellFormed) :
    ∀ c ∈ Path.continued path, isBindingChar c = true := by
  intro c hc
  obtain ⟨s, hs, hc⟩ := List.mem_flatMap.mp hc
  cases s with
  | key name =>
    rcases List.mem_cons.mp hc with rfl | hc
    · decide
    · exact isBindingChar_of_isWord ((h _ hs).2 c hc)
  | index i =>
    simp only [Step.chars, List.cons_append, List.mem_cons, List.mem_append,
      List.not_mem_nil, or_false] at hc
    rcases hc with rfl | hc | rfl
    · decide
    · exact isBindingChar_of_isWord (isWord_of_isDigit (isDigit_of_mem_toDigits hc))
    · decide

namespace Binding

/-- The context, which is a word, ends where the path begins. -/
theorem stops_behind {b : Binding} (hrest : Stops goesOn rest) :
    Stops isWord (Path.continued b.path ++ rest) := by
  cases hpath : Path.continued b.path with
  | nil => exact hrest.mono fun _ => goesOn_of_isWord
  | cons c cs =>
    have hstop := Path.stops_continued (p := isWord) (by decide) (by decide) b.path
    rw [hpath] at hstop
    exact stops_cons (hstop c rfl) _

theorem takeWhile_chars {b : Binding} (h : b.WellFormed) (hrest : Stops goesOn rest) :
    (b.chars ++ rest).takeWhile isWord = b.context.toList := by
  rw [Binding.chars, List.append_assoc]
  exact takeWhile_run h.1.1 (stops_behind hrest)

theorem dropWhile_chars {b : Binding} (h : b.WellFormed) (hrest : Stops goesOn rest) :
    (b.chars ++ rest).dropWhile isWord = Path.continued b.path ++ rest := by
  rw [Binding.chars, List.append_assoc]
  exact dropWhile_run h.1.1 (stops_behind hrest)

/-- A reference is no call. -/
theorem behind_ne {b : Binding} (hrest : Stops goesOn rest) (es : List Char) :
    Path.continued b.path ++ rest ≠ '(' :: es := by
  intro h
  cases hpath : Path.continued b.path with
  | nil =>
    rw [hpath, List.nil_append] at h
    subst h
    exact hrest '(' rfl (by decide)
  | cons c cs =>
    have hstop := Path.stops_continued (p := (· == '(')) (by decide) (by decide) b.path
    rw [hpath] at h hstop
    exact hstop c rfl (by simpa using (List.cons.inj h).1)

/-- **A reference reads back.** -/
theorem read_chars {b : Binding} (h : b.WellFormed) (hrest : Stops goesOn rest) :
    Binding.read (b.chars ++ rest) = .ok (b, rest) := by
  have hchars : ∀ c ∈ b.chars, isBindingChar c = true := by
    intro c hc
    rcases List.mem_append.mp hc with hc | hc
    · exact isBindingChar_of_isWord (h.1.1 c hc)
    · exact isBindingChar_of_mem_continued h.2 c hc
  have hbinding := hrest.mono fun _ => goesOn_of_isBindingChar
  have hhead : Path.parseHead b.chars = .ok (b.context, b.path) := by
    rw [Path.parseHead, Binding.chars, Path.readHead_continued h.1 h.2]
    rfl
  rw [Binding.read, takeWhile_run hchars hbinding, dropWhile_run hchars hbinding, hhead]

theorem constant?_eq_none {b : Binding} (h : ¬ b.IsKeyword) (rest : List Char) :
    constant? b.context.toList (Path.continued b.path ++ rest) = none := by
  cases hpath : b.path with
  | nil =>
    have hkeyword : keyword? b.context.toList = none := by
      rw [keyword?_eq_none_iff, String.ofList_toList]
      exact fun hcontext => h ⟨hpath, hcontext⟩
    unfold constant?
    split
    · rfl
    · rfl
    · exact hkeyword
  | cons s path =>
    cases s with
    | key name => rfl
    | index i => rfl

end Binding

/-! ## Arguments -/

theorem stops_parenthesis (cs : List Char) : Stops isWord ('(' :: cs) :=
  stops_cons (by decide) cs

/-- An argument begins with a character that is not blank and closes nothing. -/
def Opens (cs : List Char) : Prop :=
  ∃ c, cs.head? = some c ∧ ¬ isBlank c = true ∧ c ≠ ')'

theorem Opens.append {cs : List Char} (h : Opens cs) (rest : List Char) : Opens (cs ++ rest) := by
  obtain ⟨c, hc, h⟩ := h
  refine ⟨c, ?_, h⟩
  rw [List.head?_append, hc]
  rfl

theorem Opens.skipBlank_eq {cs : List Char} (h : Opens cs) : skipBlank cs = cs := by
  obtain ⟨c, hc, hblank, -⟩ := h
  refine skipBlank_of_stops fun d hd => ?_
  obtain rfl := Option.some.inj (hc.symm.trans hd)
  exact hblank

theorem Opens.ne {cs : List Char} (h : Opens cs) (ds : List Char) : cs ≠ ')' :: ds := by
  rintro rfl
  obtain ⟨c, hc, -, hne⟩ := h
  exact hne (Option.some.inj hc).symm

theorem opens_of_isWord {c : Char} (h : isWord c = true) (cs : List Char) : Opens (c :: cs) := by
  refine ⟨c, rfl, not_isBlank_of_isWord h, ?_⟩
  rintro rfl
  revert h
  decide

theorem opens_callName {name : String} (h : CallName name) (cs : List Char) :
    Opens (name.toList ++ cs) := by
  obtain ⟨hword, c, hc, -⟩ := h
  cases hcs : name.toList with
  | nil =>
    rw [hcs] at hc
    cases hc
  | cons d ds =>
    rw [hcs] at hword
    exact opens_of_isWord (hword d List.mem_cons_self) _

theorem Binding.opens {b : Binding} (h : b.WellFormed) : Opens b.chars := by
  obtain ⟨⟨hword, c, hc, -⟩, -⟩ := h
  obtain ⟨cs, hcs⟩ := List.head?_eq_some_iff.mp hc
  rw [Binding.chars, hcs]
  exact opens_of_isWord (hword c (List.mem_of_mem_head? hc)) _

theorem isOperationName_of_callName {name : String} (h : CallName name) :
    isOperationName name = true := by
  rw [isOperationName, Bool.and_eq_true, List.all_eq_true, List.any_eq_true]
  exact ⟨fun c hc => isNameChar_of_isWord (h.1 c hc), h.2⟩

namespace Arg

/-- A number in front of a text that cannot go on with it. -/
theorem read_signed {negative : Bool} {ds : List Char} {v : Value}
    (hcs : skipBlank cs = signPrefix negative ++ ds ++ rest)
    (hds : ∀ c ∈ ds, isMantissaChar c = true) (hdigit : ∃ c, ds.head? = some c ∧ c.isDigit = true)
    (hv : numberValue? (signPrefix negative ++ ds) = some v) (hrest : Stops goesOn rest) :
    Gives (Arg.read cs) (.literal v) rest := by
  obtain ⟨c, hc, hdigit⟩ := hdigit
  obtain ⟨es, rfl⟩ := List.head?_eq_some_iff.mp hc
  have hread := readNumber_run hds (List.cons_ne_nil c es) hrest hv
  cases negative with
  | true => exact read_number hcs (.inl rfl) hread
  | false => exact read_number hcs (.inr hdigit) hread

/-- A word that is a constant, in front of a text that cannot go on with it. -/
theorem read_keyword {word : List Char} {v : Value} (hcs : skipBlank cs = word ++ rest)
    (hstart : ∃ c, word.head? = some c ∧ isWordStart c = true)
    (hall : word.all isWord = true) (hv : keyword? word = some v)
    (hrest : Stops goesOn rest) : Gives (Arg.read cs) (.literal v) rest := by
  obtain ⟨c, hc, hstart⟩ := hstart
  obtain ⟨es, rfl⟩ := List.head?_eq_some_iff.mp hc
  have hword := List.all_eq_true.mp hall
  have hstop := hrest.mono fun _ => goesOn_of_isWord
  have htake := takeWhile_run hword hstop
  have hdrop := dropWhile_run hword hstop
  rw [List.cons_append] at hcs htake hdrop
  have hconstant : constant? (c :: es) rest = some v := by
    unfold constant?
    split
    · exact absurd (by decide) (hrest '.' rfl)
    · exact absurd (by decide) (hrest '[' rfl)
    · exact hv
  have hcall : ∀ ds, (c :: (es ++ rest)).dropWhile isWord ≠ '(' :: ds := by
    rw [hdrop]
    rintro ds rfl
    exact hrest '(' rfl (by decide)
  have hread := read_constant hcs hstart hcall (by rw [htake, hdrop]; exact hconstant)
  rwa [hdrop] at hread

theorem opens_signed {negative : Bool} {ds : List Char}
    (hdigit : ∃ c, ds.head? = some c ∧ c.isDigit = true) : Opens (signPrefix negative ++ ds) := by
  obtain ⟨c, hc, hdigit⟩ := hdigit
  obtain ⟨es, rfl⟩ := List.head?_eq_some_iff.mp hc
  cases negative with
  | true => exact ⟨'-', rfl, by decide, by decide⟩
  | false => exact opens_of_isWord (isWord_of_isDigit hdigit) es

theorem opens_literal {v : Value} (h : v.IsConstant) : Opens (literalChars v) := by
  cases v with
  | null => exact opens_of_isWord (by decide) _
  | bool b => cases b <;> exact opens_of_isWord (by decide) _
  | int n =>
    rw [literalChars_int, int64Chars_eq]
    exact opens_signed (head?_toDigits _)
  | double x =>
    obtain ⟨whole, fraction, hplain⟩ := (Decimal.shortest .up x.abs).exists_isPlain
    rw [literalChars, plainText_eq h]
    exact opens_signed hplain.head?
  | string s => exact ⟨'\'', rfl, by decide, by decide⟩
  | array items => exact h.elim
  | object fields => exact h.elim

theorem read_literal {v : Value} (h : v.IsConstant) (hcs : skipBlank cs = literalChars v ++ rest)
    (hrest : Stops goesOn rest) : Gives (Arg.read cs) (.literal v) rest := by
  cases v with
  | null => exact read_keyword hcs ⟨'n', rfl, by decide⟩ (by decide) rfl hrest
  | bool b =>
    cases b with
    | true => exact read_keyword hcs ⟨'t', rfl, by decide⟩ (by decide) rfl hrest
    | false => exact read_keyword hcs ⟨'f', rfl, by decide⟩ (by decide) rfl hrest
  | int n =>
    have hv := numberValue?_int64Chars n
    rw [literalChars_int, int64Chars_eq] at hcs
    rw [int64Chars_eq] at hv
    exact read_signed hcs (fun c => isMantissaChar_of_mem_toDigits) (head?_toDigits _) hv hrest
  | double x =>
    obtain ⟨whole, fraction, hplain⟩ := (Decimal.shortest .up x.abs).exists_isPlain
    have hv := numberValue?_plainText h
    rw [literalChars, plainText_eq h] at hcs
    rw [plainText_eq h] at hv
    exact read_signed hcs hplain.isMantissaChar hplain.head? hv hrest
  | string s =>
    rw [literalChars, quoteArg, List.append_assoc, List.cons_append] at hcs
    have hread := read_quoted hcs (readQuoted_quoteArg s.toList rest)
    rwa [String.ofList_toList] at hread
  | array items => exact h.elim
  | object fields => exact h.elim

theorem read_name {name : String} {args : List Arg} {es : List Char} (hname : CallName name)
    (hdigit : Stops Char.isDigit name.toList) (hcs : skipBlank cs = name.toList ++ '(' :: es)
    (hargs : Gives (Arg.readArgs es) args rest) : Gives (Arg.read cs) (.call name args) rest := by
  obtain ⟨d, hd, -⟩ := hname.2
  obtain ⟨c, ds, hcons⟩ := List.exists_cons_of_ne_nil (List.ne_nil_of_mem hd)
  have hstart : isWordStart c = true :=
    isWordStart_of_isWord (hname.1 c (by rw [hcons]; exact List.mem_cons_self))
      (hdigit c (by rw [hcons]; rfl))
  have htake := takeWhile_run hname.1 (stops_parenthesis es)
  have hdrop := dropWhile_run hname.1 (stops_parenthesis es)
  have hoperation := isOperationName_of_callName hname
  rw [hcons, List.cons_append] at hcs htake hdrop
  rw [← String.ofList_toList (s := name), hcons, ← htake] at hoperation ⊢
  exact read_call hcs hstart hdrop hoperation hargs

theorem read_reference {b : Binding} (h : b.WellFormed) (hkeyword : ¬ b.IsKeyword)
    (hcs : skipBlank cs = b.chars ++ rest) (hrest : Stops goesOn rest) :
    Gives (Arg.read cs) (.binding b) rest := by
  obtain ⟨c, hc, hstart⟩ := h.1.2
  obtain ⟨ds, hds⟩ := List.head?_eq_some_iff.mp hc
  have htake := Binding.takeWhile_chars h hrest
  have hdrop := Binding.dropWhile_chars h hrest
  have hread := Binding.read_chars h hrest
  have hcons : b.chars ++ rest = c :: (ds ++ Path.continued b.path ++ rest) := by
    rw [Binding.chars, hds]
    rfl
  rw [hcons] at hcs htake hdrop hread
  refine read_binding hcs hstart (fun es => ?_) ?_ hread
  · rw [hdrop]
    exact Binding.behind_ne hrest es
  · rw [htake, hdrop]
    exact Binding.constant?_eq_none hkeyword rest

theorem opens {a : Arg} (h : a.WellFormed) : Opens a.chars := by
  cases a with
  | literal v => exact opens_literal h
  | binding b => exact Binding.opens h.1
  | call name args =>
    cases args with
    | nil => exact opens_callName h.1 _
    | cons a as =>
      rw [Arg.chars, List.append_assoc, List.append_assoc]
      exact opens_callName h.1 _

mutual

/-- **An argument reads back** in front of a text that cannot go on with it. -/
theorem read_chars (a : Arg) (h : a.WellFormed) {cs rest : List Char}
    (hcs : skipBlank cs = a.chars ++ rest) (hrest : Stops goesOn rest) :
    Gives (Arg.read cs) a rest := by
  match a with
  | .literal v => exact read_literal h (by rwa [Arg.chars] at hcs) hrest
  | .binding b => exact read_reference h.1 h.2 (by rwa [Arg.chars] at hcs) hrest
  | .call name [] =>
    obtain ⟨hname, hdigit, -⟩ := h
    rw [Arg.chars, List.append_assoc] at hcs
    exact read_name hname hdigit hcs (readArgs_none (skipBlank_of_stops (stops_cons (by decide) _)))
  | .call name (a :: as) =>
    obtain ⟨hname, hdigit, ha, has⟩ := h
    rw [Arg.chars, List.append_assoc, List.append_assoc, List.append_assoc, List.cons_append] at hcs
    exact read_name hname hdigit hcs (readArgs_chars a as ha has)
termination_by sizeOf a

theorem readArgs_chars (a : Arg) (as : List Arg) (ha : a.WellFormed) (has : Arg.AllWellFormed as)
    {rest : List Char} :
    Gives (Arg.readArgs (a.chars ++ (Arg.charsAll as ++ ')' :: rest))) (a :: as) rest := by
  have hopens := (opens ha).append (Arg.charsAll as ++ ')' :: rest)
  refine readArgs_more (fun ds => ?_) (readMore_chars a as ha has hopens.skipBlank_eq)
  rw [hopens.skipBlank_eq]
  exact hopens.ne ds
termination_by sizeOf a + sizeOf as + 1

theorem readMore_chars (a : Arg) (as : List Arg) (ha : a.WellFormed) (has : Arg.AllWellFormed as)
    {cs rest : List Char} (hcs : skipBlank cs = a.chars ++ (Arg.charsAll as ++ ')' :: rest)) :
    Gives (Arg.readMore cs) (a :: as) rest := by
  match as with
  | [] =>
    rw [Arg.charsAll, List.nil_append] at hcs
    exact readMore_last (read_chars a ha hcs (stops_cons (by decide) _))
      (skipBlank_of_stops (stops_cons (by decide) _))
  | b :: bs =>
    rw [Arg.charsAll, List.append_assoc, List.cons_append] at hcs
    refine readMore_cons (read_chars a ha hcs (stops_cons (by decide) _))
      (skipBlank_of_stops (stops_cons (by decide) _)) (readMore_chars b bs has.1 has.2 ?_)
    exact ((opens has.1).append _).skipBlank_eq
termination_by sizeOf a + sizeOf as

end

end Arg

namespace Interpolation

theorem read_name {name : String} {args : List Arg} {es : List Char} (hname : CallName name)
    (hcs : skipBlank cs = name.toList ++ '(' :: es) (hargs : Gives (Arg.readArgs es) args rest) :
    Gives (Interpolation.read cs) (.call name args) rest := by
  obtain ⟨d, hd, -⟩ := hname.2
  have htake := takeWhile_run hname.1 (stops_parenthesis es)
  have hdrop := dropWhile_run hname.1 (stops_parenthesis es)
  rw [← hcs] at htake hdrop
  have hoperation := isOperationName_of_callName hname
  rw [← String.ofList_toList (s := name), ← htake] at hoperation ⊢
  exact read_call (by rw [htake]; exact List.ne_nil_of_mem hd) hdrop hoperation hargs

/-- **An interpolation reads back** in front of a text that cannot go on with it. -/
theorem read_chars {i : Interpolation} (h : i.WellFormed) (hrest : Stops goesOn rest) :
    Gives (Interpolation.read (i.chars ++ rest)) i rest := by
  match i with
  | .binding b =>
    rw [Interpolation.chars, Interpolation.toArg, Arg.chars]
    have hskip := ((Binding.opens h).append rest).skipBlank_eq
    have htake := Binding.takeWhile_chars h hrest
    have hdrop := Binding.dropWhile_chars h hrest
    have hread := Binding.read_chars h hrest
    rw [← hskip] at htake hdrop hread
    refine read_binding ?_ (fun es => ?_) hread
    · rw [htake]
      obtain ⟨c, hc, -⟩ := h.1.2
      exact List.ne_nil_of_mem (List.mem_of_mem_head? hc)
    · rw [hdrop]
      exact Binding.behind_ne hrest es
  | .call name [] =>
    rw [Interpolation.chars, Interpolation.toArg, Arg.chars, List.append_assoc]
    exact read_name h.1 (opens_callName h.1 _).skipBlank_eq
      (Arg.readArgs_none (skipBlank_of_stops (stops_cons (by decide) _)))
  | .call name (a :: as) =>
    obtain ⟨hname, ha, has⟩ := h
    rw [Interpolation.chars, Interpolation.toArg, Arg.chars, List.append_assoc, List.append_assoc,
      List.append_assoc, List.cons_append]
    exact read_name hname (opens_callName hname _).skipBlank_eq (Arg.readArgs_chars a as ha has)

end Interpolation

/-! ## Texts -/

/-- The elements that a piece is read as. -/
def Piece.atoms : Piece → List Atom
  | .text s => s.toList.map .char
  | .interpolation i => [.interpolation i]

theorem readAtoms_braced {i : Interpolation} (h : i.WellFormed) (rest : List Char) :
    readAtoms (i.braced ++ rest) = (readAtoms rest).map (.interpolation i :: ·) := by
  have hbraced : i.braced ++ rest = '@' :: '{' :: (i.chars ++ '}' :: rest) := by
    simp [Interpolation.braced]
  rw [hbraced]
  exact readAtoms_interpolation (Interpolation.read_chars h (stops_cons (by decide) _))
    (skipBlank_of_stops (stops_cons (by decide) rest))

theorem stops_escapeText {cs rest : List Char} (hcs : Stops (· == '{') cs)
    (hrest : Stops (· == '{') rest) : Stops (· == '{') (escapeText cs ++ rest) := by
  fun_cases escapeText cs with
  | case1 => exact hrest
  | case2 cs => exact stops_cons (by decide) _
  | case3 cs => exact stops_cons (by decide) _
  | case4 c cs _ _ => exact stops_cons (p := (· == '{')) (hcs c rfl) _

theorem map_map_cons {ε α : Type} (r : Except ε (List α)) (as bs : List α) :
    (r.map (bs ++ ·)).map (as ++ ·) = r.map (as ++ bs ++ ·) := by
  cases r with
  | error e => rfl
  | ok cs => exact congrArg Except.ok (List.append_assoc _ _ _).symm

/-- **A text reads back as its characters**, in front of a text that makes no interpolation of its
last one. -/
theorem readAtoms_escapeText (cs : List Char) {rest : List Char} (hrest : Stops (· == '{') rest) :
    readAtoms (escapeText cs ++ rest) = (readAtoms rest).map (cs.map .char ++ ·) := by
  fun_induction escapeText cs with
  | case1 =>
    rw [List.nil_append]
    cases readAtoms rest <;> rfl
  | case2 cs ih =>
    rw [List.cons_append, List.cons_append, readAtoms, ih]
    exact map_map_cons _ [Atom.char '\\'] _
  | case3 cs ih =>
    rw [List.cons_append, List.cons_append, List.cons_append, readAtoms, ih]
    exact map_map_cons _ [Atom.char '@', Atom.char '{'] _
  | case4 c cs hslash hbrace ih =>
    rw [List.cons_append, readAtoms, ih]
    · exact map_map_cons _ [Atom.char c] _
    · exact fun ds hc _ => hslash hc
    · exact fun ds hc _ => hslash hc
    · intro ds hc hds
      have hstop : Stops (· == '{') cs := fun d hd hbrace' => by
        obtain ⟨es, hes⟩ := List.head?_eq_some_iff.mp hd
        exact hbrace es hc (by rw [hes, beq_iff_eq.mp hbrace'])
      exact stops_escapeText hstop hrest '{' (by rw [hds]; rfl) (by decide)

theorem stops_pieces {ps : List Piece} (h : ∀ p, ps.head? = some p → p.isText = false) :
    Stops (· == '{') (ps.flatMap Piece.chars) := by
  cases ps with
  | nil => exact stops_nil _
  | cons p ps =>
    cases p with
    | text s => exact Bool.noConfusion (h _ rfl)
    | interpolation i => exact stops_cons (by decide) _

/-- Pieces behind a text begin with an interpolation. -/
theorem Pieces.head?_of_text {s : String} {ps : List Piece} (h : Pieces (.text s :: ps)) :
    ∀ p, ps.head? = some p → p.isText = false := by
  intro p hp
  have hchain := (List.isChain_cons.mp h.2).1 p (by simp [hp])
  exact Bool.eq_false_iff.mpr fun htext => hchain ⟨rfl, htext⟩

theorem Pieces.tail {p : Piece} {ps : List Piece} (h : Pieces (p :: ps)) : Pieces ps :=
  ⟨fun q hq => h.1 q (List.mem_cons_of_mem _ hq), (List.isChain_cons.mp h.2).2⟩

theorem readAtoms_pieces {ps : List Piece} (h : Pieces ps) :
    readAtoms (ps.flatMap Piece.chars) = .ok (ps.flatMap Piece.atoms) := by
  induction ps with
  | nil => rw [List.flatMap_nil, readAtoms]; rfl
  | cons p ps ih =>
    rw [List.flatMap_cons]
    cases p with
    | text s =>
      rw [Piece.chars, readAtoms_escapeText _ (stops_pieces h.head?_of_text), ih h.tail]
      rfl
    | interpolation i =>
      rw [Piece.chars, readAtoms_braced (h.1 _ List.mem_cons_self), ih h.tail]
      rfl

theorem piecesFrom_chars (cs passed : List Char) (as : List Atom) :
    piecesFrom passed (cs.map .char ++ as) = piecesFrom (cs.reverse ++ passed) as := by
  induction cs generalizing passed with
  | nil => rfl
  | cons c cs ih =>
    rw [List.map_cons, List.cons_append, piecesFrom, ih, List.reverse_cons, List.append_assoc]
    rfl

theorem flush_reverse {s : String} (h : s ≠ "") : flush s.toList.reverse = [.text s] := by
  unfold flush
  split
  · rename_i hnil
    exact absurd (String.toList_eq_nil_iff.mp (List.reverse_eq_nil_iff.mp hnil)) h
  · rw [List.reverse_reverse, String.ofList_toList]

/-- Pieces are what their elements make up. -/
theorem piecesFrom_atoms {ps : List Piece} (h : Pieces ps) {passed : List Char}
    (hpassed : passed = [] ∨ ∀ p, ps.head? = some p → p.isText = false) :
    piecesFrom passed (ps.flatMap Piece.atoms) = flush passed ++ ps := by
  induction ps generalizing passed with
  | nil => rw [List.flatMap_nil, piecesFrom, List.append_nil]
  | cons p ps ih =>
    rw [List.flatMap_cons]
    cases p with
    | text s =>
      obtain rfl : passed = [] := hpassed.resolve_right fun hhead => Bool.noConfusion (hhead _ rfl)
      rw [Piece.atoms, piecesFrom_chars, List.append_nil, ih h.tail (.inr h.head?_of_text),
        flush_reverse (h.1 _ List.mem_cons_self)]
      rfl
    | interpolation i =>
      change flush passed ++ .interpolation i :: piecesFrom [] (ps.flatMap Piece.atoms) = _
      rw [ih h.tail (.inl rfl)]
      rfl

theorem Expr.parse_ofList {cs : List Char} {as : List Atom} (h : readAtoms cs = .ok as) :
    Expr.parse (String.ofList cs) = .ok (Expr.ofPieces (piecesFrom [] as)) := by
  rw [Expr.parse, String.toList_ofList, h]
  rfl

/-- **An expression that is well-formed reads back.** -/
theorem Expr.parse_render_of_wellFormed {e : Expr} (h : e.WellFormed) :
    Expr.parse e.render = .ok e := by
  rw [Expr.render]
  cases e with
  | literal v =>
    obtain ⟨s, rfl⟩ := h
    have hread := readAtoms_escapeText s.toList (stops_nil _)
    rw [List.append_nil, readAtoms] at hread
    rw [Expr.chars, Expr.parse_ofList hread, piecesFrom_chars, List.append_nil, piecesFrom]
    by_cases hs : s = ""
    · rw [hs]
      rfl
    · rw [flush_reverse hs]
      rfl
  | single i =>
    have hread := readAtoms_braced h []
    rw [List.append_nil, readAtoms] at hread
    exact Expr.parse_ofList hread
  | template ps =>
    rw [Expr.chars, Expr.parse_ofList (readAtoms_pieces h.2), piecesFrom_atoms h.2 (.inl rfl)]
    obtain ⟨hlength, -⟩ := h
    rcases ps with _ | ⟨p, _ | ⟨q, ps⟩⟩
    · simp at hlength
    · simp at hlength
    · simp [flush, Expr.ofPieces]

/-- **Reading undoes writing.** What can be read is well-formed, and whatever is well-formed reads
back from its text: the expressions that can be read are exactly the well-formed ones. -/
theorem Expr.parse_render :
    (∀ raw e, Expr.parse raw = .ok e → e.WellFormed) ∧
      ∀ e : Expr, e.WellFormed → Expr.parse e.render = .ok e :=
  ⟨fun _ _ => Expr.wellFormed_of_parse, fun _ => Expr.parse_render_of_wellFormed⟩

/-- A template with what has to be escaped in it, calls inside a call, and each kind of argument. -/
def quotedCalls : Expr :=
  .template [.text "\\@\x7bb\x7d'",
    .interpolation (.call "2_nd" [.literal (.string "it's \\ @\x7bx\x7d"), .literal (.int (-42)),
      .literal (.double (-2.5e-3)), .literal (.bool true), .call "_f" [.literal .null, .call "g" []],
      .binding ⟨"true", [.index 0, .key "9"]⟩]),
    .text "\\", .interpolation (.binding ⟨"null", []⟩)]

theorem Expr.parse_render_of_quotedCalls : quotedCalls.WellFormed ∧
    quotedCalls.render = "\\\\\\@\x7bb\x7d'@\x7b2_nd('it\\'s \\\\ @\x7bx\x7d', -42, -0.0025, true, " ++
      "_f(null, g()), true[0].9)\x7d\\\\@\x7bnull\x7d" ∧
    Expr.parse quotedCalls.render = .ok quotedCalls := by
  have hwf : quotedCalls.WellFormed := by decide +kernel
  have hparse := Expr.parse_render.2 quotedCalls hwf
  exact ⟨Expr.parse_render.1 _ _ hparse, by decide +kernel, hparse⟩

end DataBinding
