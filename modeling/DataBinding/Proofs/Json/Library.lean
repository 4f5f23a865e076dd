import DataBinding.Proofs.Json.RoundTrip
import DataBinding.Proofs.Json.Scalars

/-!
# The library that is run with is strict

The reader reads every JSON text of data that is not nested too deep, however strings are spelled
and wherever blanks stand, and what is printed is such a text. So values read back, if their doubles
do: a double reads back if its digits and the power of ten that they are scaled by are doubles.

* `Json.value?_pair`, `Json.items?_pair`, `Json.fields?_pair`: the reader without its proofs that
  text is used up. Behind an opening character stands what `Json.opened` reads, and behind each part
  what `Json.following` reads.
* `Json.reads`: every text of the data is read, in front of any text that no number goes on with.
* `Json.spelled_chars`: what is printed is a text of the data.
* `Json.strict_library`: both together. `Json.rereads_of_exact`: which doubles read back.
* `Value.ofJson_read?_write_ne`: data that is nested deeper does not read back.
-/

namespace DataBinding

open Text

namespace Json

variable {depth : Nat} {cs ds rest : List Char} {r : Json Number × List Char}

/-! ## The reader without its proofs -/

theorem skipBlank_of_stops (h : Stops isBlank cs) : skipBlank cs = cs :=
  h.dropWhile_eq

section Brackets

variable {α β : Type}

/-- What is read behind the part `a` of an array or an object: the closing character, or a comma and
what `read` makes of the text behind it. -/
def following (close : Char) (read : List Char → Option (List α × List Char)) (a : α)
    (cs : List Char) : Option (List α × List Char) :=
  match skipBlank cs with
  | [] => none
  | c :: rest =>
    if c = close then some ([a], rest)
    else if c = ',' then (read rest).map (Prod.map (a :: ·) id)
    else none

/-- What is read behind the opening character of an array or an object: the closing one, or the
parts that `read` finds. At depth zero there may be neither. -/
def opened (close : Char) (wrap : List α → Json Number)
    (read : Nat → List Char → Option (List α × List Char)) (depth : Nat) (cs : List Char) :
    Option (Json Number × List Char) :=
  match depth with
  | 0 => none
  | depth + 1 =>
    match skipBlank cs with
    | [] => (read depth cs).map (Prod.map wrap id)
    | c :: rest =>
      if c = close then some (wrap [], rest) else (read depth cs).map (Prod.map wrap id)

variable {close : Char} {wrap : List α → Json Number}

section Following

variable {read : List Char → Option (List α × List Char)} {a : α}

theorem following_close (h : skipBlank cs = close :: rest) :
    following close read a cs = some ([a], rest) := by
  rw [following, h]
  exact if_pos rfl

theorem following_comma (hclose : ',' ≠ close) (h : skipBlank cs = ',' :: rest) :
    following close read a cs = (read rest).map (Prod.map (a :: ·) id) := by
  rw [following, h]
  exact (if_neg hclose).trans (if_pos rfl)

theorem following_none (hclose : ∀ rest, skipBlank cs ≠ close :: rest)
    (hcomma : ∀ rest, skipBlank cs ≠ ',' :: rest) : following close read a cs = none := by
  unfold following
  split
  · rfl
  · rename_i h
    rw [if_neg fun hc => hclose _ (hc ▸ h), if_neg fun hc => hcomma _ (hc ▸ h)]

end Following

section Opened

variable {read : Nat → List Char → Option (List α × List Char)}

theorem opened_close (h : skipBlank cs = close :: rest) :
    opened close wrap read (depth + 1) cs = some (wrap [], rest) := by
  rw [opened, h]
  exact if_pos rfl

theorem opened_parts (h : ∀ rest, skipBlank cs ≠ close :: rest) :
    opened close wrap read (depth + 1) cs = (read depth cs).map (Prod.map wrap id) := by
  rw [opened]
  split
  · rfl
  · rename_i hcs
    exact if_neg fun hc => h _ (hc ▸ hcs)

end Opened

end Brackets

/-- The reader of elements. -/
theorem items?_pair (depth : Nat) (cs : List Char) : (items? depth cs).map Taken.pair =
    ((value? depth (skipBlank cs)).map Taken.pair).bind fun v =>
      following ']' (fun cs => (items? depth cs).map Taken.pair) v.1 v.2 := by
  rw [items?]
  split
  · rename_i h
    rw [h]
    rfl
  · rename_i t h
    rw [h, Option.map_some, Option.bind_some]
    split
    · rename_i hclosed
      exact (following_close hclosed).symm
    · rename_i hcomma
      refine Eq.trans ?_ (following_comma (by decide) hcomma).symm
      rw [Option.map_map, Option.map_map]
      rfl
    · rename_i hclosed hcomma
      exact (following_none hclosed hcomma).symm

/-- The reader of fields. -/
theorem fields?_pair (depth : Nat) (cs : List Char) : (fields? depth cs).map Taken.pair =
    ((key? cs).map Taken.pair).bind fun k =>
      ((value? depth k.2).map Taken.pair).bind fun v =>
        following '}' (fun cs => (fields? depth cs).map Taken.pair) (k.1, v.1) v.2 := by
  rw [fields?]
  split
  · rename_i hkey
    rw [hkey]
    rfl
  · rename_i k hkey
    rw [hkey, Option.map_some, Option.bind_some]
    split
    · rename_i h
      change none = ((value? depth k.rest).map Taken.pair).bind _
      rw [h]
      rfl
    · rename_i t h
      change _ = ((value? depth k.rest).map Taken.pair).bind _
      rw [h, Option.map_some, Option.bind_some]
      split
      · rename_i hclosed
        exact (following_close hclosed).symm
      · rename_i hcomma
        refine Eq.trans ?_ (following_comma (by decide) hcomma).symm
        rw [Option.map_map, Option.map_map]
        rfl
      · rename_i hclosed hcomma
        exact (following_none hclosed hcomma).symm

/-- The reader of values. -/
theorem value?_pair (depth : Nat) (cs : List Char) : (value? depth cs).map Taken.pair =
    match cs with
    | 'n' :: 'u' :: 'l' :: 'l' :: rest => some (.null, rest)
    | 't' :: 'r' :: 'u' :: 'e' :: rest => some (.bool true, rest)
    | 'f' :: 'a' :: 'l' :: 's' :: 'e' :: rest => some (.bool false, rest)
    | '"' :: ds => ((quoted? ('"' :: ds)).map Taken.pair).map (Prod.map .string id)
    | '[' :: ds => opened ']' .array (fun depth cs => (items? depth cs).map Taken.pair) depth ds
    | '{' :: ds =>
      opened '}' (.object ∘ Entries.ofList) (fun depth cs => (fields? depth cs).map Taken.pair)
        depth ds
    | ds => ((number? ds).map Taken.pair).map (Prod.map .number id) := by
  unfold value?
  split
  · rfl
  · rfl
  · rfl
  · rw [Option.map_map]
    exact (Option.map_map (Prod.map Json.string id) Taken.pair _).symm
  · split
    · rfl
    · split
      · rename_i h
        exact (opened_close h).symm
      · rename_i h
        refine Eq.trans ?_ (opened_parts h).symm
        rw [Option.map_map, Option.map_map]
        rfl
  · split
    · rfl
    · split
      · rename_i h
        refine Eq.trans ?_ (opened_close h).symm
        rfl
      · rename_i h
        refine Eq.trans ?_ (opened_parts h).symm
        rw [Option.map_map, Option.map_map]
        rfl
  · rw [Option.map_map]
    simp_all [Option.map_map, Function.comp_def, Taken.map, Taken.pair]

/-! ## Parts of data -/

/-- The text is read as the number. -/
def NumberText (n : Number) (cs : List Char) : Prop :=
  readNumber? (String.ofList cs) = some n

theorem readNumber?_eq_some_iff {s : String} {n : Number} :
    readNumber? s = some n ↔ (number? s.toList).map Taken.pair = some (n, []) := by
  rw [readNumber?]
  cases number? s.toList with
  | none => simp
  | some t => simp [Taken.pair, and_comm]

theorem numberText_iff {n : Number} :
    NumberText n cs ↔ (number? cs).map Taken.pair = some (n, []) := by
  have h := @readNumber?_eq_some_iff (String.ofList cs) n
  rwa [String.toList_ofList] at h

theorem quoted?_of_spelled {s : String} (h : SpelledString s cs) (rest : List Char) :
    (quoted? (cs ++ rest)).map Taken.pair = some (s, rest) := by
  obtain ⟨body, hbody, rfl⟩ := h
  have hstring := string?_of_body hbody rest
  have htext : '"' :: body ++ ['"'] ++ rest = '"' :: (body ++ '"' :: rest) := by simp
  rw [htext, quoted?]
  split
  · rename_i h
    obtain ⟨rfl, rfl⟩ := Prod.mk.inj (Option.some.inj (h.symm.trans hstring))
    exact congrArg some (Prod.ext String.ofList_toList rfl)
  · rename_i h
    cases h.symm.trans hstring

/-- A number begins with a digit or a minus sign. -/
theorem exists_head_of_number? {r : Number × List Char}
    (h : (number? cs).map Taken.pair = some r) :
    ∃ c ds, cs = c :: ds ∧ (c.isDigit = true ∨ c = '-') := by
  unfold number? at h
  split at h
  · exact ⟨_, _, rfl, .inr rfl⟩
  · split at h
    · rename_i hnumber
      obtain ⟨c, ds, rfl, hc⟩ := exists_digit_of_takeNumber? hnumber
      exact ⟨c, ds, rfl, .inl hc⟩
    · cases h

theorem value?_of_number? {n : Number} (h : (number? cs).map Taken.pair = some (n, rest)) :
    (value? depth cs).map Taken.pair = some (.number n, rest) := by
  obtain ⟨c, ds, rfl, hc⟩ := exists_head_of_number? h
  have hne : ∀ c' : Char, c'.isDigit = false → c' ≠ '-' → c ≠ c' := by
    rintro c' hdigit hminus rfl
    rcases hc with hc | hc
    · rw [hdigit] at hc
      cases hc
    · exact hminus hc
  rw [value?_pair]
  split
  case h_7 =>
    rw [h]
    rfl
  all_goals
    rename_i heq
    exact absurd (List.cons.inj heq).1 (hne _ (by decide) (by decide))

/-! ## Blanks -/

/-- A blank or the closing bracket of an array: where it stands no data begins. -/
def isBetween (c : Char) : Bool :=
  isBlank c || c == ']'

theorem not_isBetween_of_isDigit {c : Char} (h : c.isDigit = true) : ¬ isBetween c = true := by
  intro hc
  simp only [isBetween, isBlank, Bool.or_eq_true, beq_iff_eq] at hc
  rcases hc with (((rfl | rfl) | rfl) | rfl) | rfl <;> exact absurd h (by decide)

theorem not_isNumberChar_of_isBlank {c : Char} (h : isBlank c = true) :
    ¬ isNumberChar c = true := by
  simp only [isBlank, Bool.or_eq_true, beq_iff_eq] at h
  rcases h with ((rfl | rfl) | rfl) | rfl <;> decide

theorem skipBlank_append {before : List Char} (h : Blank before) (cs : List Char) :
    skipBlank (before ++ cs) = skipBlank cs :=
  List.dropWhile_append_of_pos h

/-- Text behind which blanks and no more of a number come. -/
theorem stops_append_of_blank {after : List Char} (hafter : Blank after)
    (h : Stops isNumberChar rest) : Stops isNumberChar (after ++ rest) := by
  cases after with
  | nil => exact h
  | cons c after => exact stops_cons (not_isNumberChar_of_isBlank (hafter c List.mem_cons_self)) _

/-- A text of data begins with no blank and does not close an array. -/
theorem exists_head_of_spelled {j : Json Number} (h : Spelled NumberText j cs) :
    ∃ c ds, cs = c :: ds ∧ ¬ isBetween c = true := by
  cases j with
  | null => exact ⟨_, _, h, by decide⟩
  | bool b => cases b <;> exact ⟨_, _, h, by decide⟩
  | number n =>
    obtain ⟨c, ds, rfl, hc | rfl⟩ := exists_head_of_number? (numberText_iff.mp h)
    · exact ⟨c, ds, rfl, not_isBetween_of_isDigit hc⟩
    · exact ⟨_, ds, rfl, by decide⟩
  | string s =>
    obtain ⟨body, -, rfl⟩ := h
    exact ⟨_, _, rfl, by decide⟩
  | array js =>
    obtain ⟨inner, -, rfl⟩ := h
    exact ⟨_, _, rfl, by decide⟩
  | object fields =>
    obtain ⟨fs⟩ := fields
    obtain ⟨inner, -, rfl⟩ := h
    exact ⟨_, _, rfl, by decide⟩

theorem stops_spelled {j : Json Number} (h : Spelled NumberText j cs) (rest : List Char) :
    Stops isBetween (cs ++ rest) := by
  obtain ⟨c, ds, rfl, hc⟩ := exists_head_of_spelled h
  exact stops_cons hc _

theorem skipBlank_spelled {j : Json Number} (h : Spelled NumberText j cs) (rest : List Char) :
    skipBlank (cs ++ rest) = cs ++ rest :=
  skipBlank_of_stops ((stops_spelled h rest).mono fun c hc => by
    rw [isBetween, hc, Bool.true_or])

theorem skipBlank_spelledString {s : String} (h : SpelledString s cs) (rest : List Char) :
    skipBlank (cs ++ rest) = cs ++ rest := by
  obtain ⟨body, -, rfl⟩ := h
  exact skipBlank_of_stops (stops_cons (by decide) _)

/-- A key, and the blanks on both sides of the colon. -/
theorem key?_of_spelled {s : String} (h : Padded (SpelledString s) cs) (ds : List Char) :
    (key? (cs ++ ':' :: ds)).map Taken.pair = some (s, skipBlank ds) := by
  obtain ⟨before, text, after, hbefore, htext, hafter, rfl⟩ := h
  have hskip : skipBlank (before ++ text ++ after ++ ':' :: ds) = text ++ (after ++ ':' :: ds) := by
    rw [List.append_assoc, List.append_assoc, skipBlank_append hbefore,
      skipBlank_spelledString htext]
  have hquoted := quoted?_of_spelled htext (after ++ ':' :: ds)
  have hcolon : skipBlank (after ++ ':' :: ds) = ':' :: ds := by
    rw [skipBlank_append hafter]
    exact skipBlank_of_stops (stops_cons (by decide) _)
  rw [← hskip] at hquoted
  rw [key?]
  split
  · rename_i h'
    rw [h'] at hquoted
    cases hquoted
  · rename_i t h'
    rw [h'] at hquoted
    obtain ⟨hvalue, hrest⟩ := Prod.mk.inj (Option.some.inj hquoted)
    rw [← hrest] at hcolon
    split
    · rename_i hcolon'
      obtain rfl := (List.cons.inj (hcolon'.symm.trans hcolon)).2
      exact congrArg some (Prod.ext hvalue rfl)
    · rename_i hne
      exact absurd hcolon (hne ds)

/-! ## Parts between brackets -/

section Parts

variable {α β : Type} {close : Char} {f : β → α} {b : β} {as : List α} {p q : Prop} [Decidable p]
  [Decidable q]

/-- The last part. -/
theorem bind_following_close {read : List Char → Option (List α × List Char)}
    (h : skipBlank cs = close :: rest) :
    (if p then some (b, cs) else none).bind (fun r => following close read (f r.1) r.2) =
      if p then some ([f b], rest) else none := by
  split
  · exact following_close h
  · rfl

/-- A part with others behind it: it is read if both can be read. -/
theorem bind_following_comma {read : List Char → Option (List α × List Char)}
    (hclose : ',' ≠ close) (h : skipBlank cs = ',' :: ds)
    (hread : read ds = if q then some (as, rest) else none) :
    (if p then some (b, cs) else none).bind (fun r => following close read (f r.1) r.2) =
      if p ∧ q then some (f b :: as, rest) else none := by
  by_cases hp : p
  · rw [if_pos hp, Option.bind_some, following_comma hclose h, hread]
    by_cases hq : q
    · rw [if_pos hq, if_pos ⟨hp, hq⟩]
      rfl
    · rw [if_neg hq, if_neg fun h => hq h.2]
      rfl
  · rw [if_neg hp, if_neg fun h => hp h.1]
    rfl

variable {wrap : List α → Json Number} {read : Nat → List Char → Option (List α × List Char)}

theorem opened_nil (h : skipBlank cs = close :: rest) :
    opened close wrap read depth cs = if 1 ≤ depth then some (wrap [], rest) else none := by
  cases depth with
  | zero => rfl
  | succ depth => exact opened_close h

/-- Parts between brackets are one level deeper. -/
theorem opened_of_read {n : Nat} (hclose : ∀ ds, skipBlank cs ≠ close :: ds)
    (hread : ∀ depth, read depth cs = if n ≤ depth then some (as, rest) else none) :
    opened close wrap read depth cs = if n + 1 ≤ depth then some (wrap as, rest) else none := by
  cases depth with
  | zero => rfl
  | succ depth =>
    rw [opened_parts hclose, hread, if_congr Nat.succ_le_succ_iff rfl rfl]
    split <;> rfl

end Parts

/-! ## Reading data -/

/-- Every text of the data is read as the data, and what stands behind it is left. -/
def Reads (j : Json Number) : Prop :=
  ∀ cs, Spelled NumberText j cs → ∀ (depth : Nat) (rest : List Char), Stops isNumberChar rest →
    (value? depth (cs ++ rest)).map Taken.pair =
      if j.depth ≤ depth then some (j, rest) else none

/-- Data with blanks around it. -/
theorem Reads.padded {j : Json Number} (h : Reads j) (hcs : Padded (Spelled NumberText j) cs)
    (depth : Nat) (hrest : Stops isNumberChar rest) :
    ∃ after, Blank after ∧ (∀ ds, skipBlank (cs ++ rest) ≠ ']' :: ds) ∧
      (value? depth (skipBlank (cs ++ rest))).map Taken.pair =
        if j.depth ≤ depth then some (j, after ++ rest) else none := by
  obtain ⟨before, text, after, hbefore, htext, hafter, rfl⟩ := hcs
  have hskip : skipBlank (before ++ text ++ after ++ rest) = text ++ (after ++ rest) := by
    rw [List.append_assoc, List.append_assoc, skipBlank_append hbefore, skipBlank_spelled htext]
  refine ⟨after, hafter, fun ds hclose => ?_, ?_⟩
  · rw [hskip] at hclose
    exact stops_spelled htext (after ++ rest) ']' (by rw [hclose]; rfl) (by decide)
  · rw [hskip]
    exact h text htext depth _ (stops_append_of_blank hafter hrest)

theorem skipBlank_append_cons {after : List Char} (h : Blank after) {c : Char}
    (hc : ¬ isBlank c = true) (cs : List Char) : skipBlank (after ++ c :: cs) = c :: cs := by
  rw [skipBlank_append h]
  exact skipBlank_of_stops (stops_cons hc cs)

theorem items?_of_separated {j : Json Number} {js : List (Json Number)}
    (hread : ∀ i ∈ j :: js, Reads i)
    (h : Separated (spelledItems NumberText (j :: js)) cs) (depth : Nat) (rest : List Char) :
    (∀ ds, skipBlank (cs ++ ']' :: rest) ≠ ']' :: ds) ∧
      (items? depth (cs ++ ']' :: rest)).map Taken.pair =
        if itemsDepth (j :: js) ≤ depth then some (j :: js, rest) else none := by
  induction js generalizing j cs with
  | nil =>
    obtain ⟨after, hafter, hclose, hvalue⟩ :=
      (hread j List.mem_cons_self).padded h depth (stops_cons (c := ']') (by decide) rest)
    refine ⟨hclose, ?_⟩
    rw [items?_pair, hvalue, itemsDepth, itemsDepth, Nat.max_zero]
    exact bind_following_close (f := id) (skipBlank_append_cons hafter (by decide) rest)
  | cons i js ih =>
    obtain ⟨text, more, htext, hmore, rfl⟩ := h
    obtain ⟨after, hafter, hclose, hvalue⟩ := (hread j List.mem_cons_self).padded htext depth
      (stops_cons (c := ',') (by decide) (more ++ ']' :: rest))
    obtain ⟨-, hitems⟩ := ih (fun i hi => hread i (List.mem_cons_of_mem j hi)) hmore
    have hassoc : text ++ ',' :: more ++ ']' :: rest = text ++ ',' :: (more ++ ']' :: rest) := by
      simp
    rw [hassoc]
    refine ⟨hclose, ?_⟩
    rw [items?_pair, hvalue, itemsDepth, if_congr Nat.max_le rfl rfl]
    exact bind_following_comma (f := id) (by decide) (skipBlank_append_cons hafter (by decide) _)
      hitems

theorem fields?_of_separated {e : String × Json Number} {fs : List (String × Json Number)}
    (hread : ∀ d ∈ e :: fs, Reads d.2)
    (h : Separated (spelledFields NumberText (e :: fs)) cs) (depth : Nat) (rest : List Char) :
    (∀ ds, skipBlank (cs ++ '}' :: rest) ≠ '}' :: ds) ∧
      (fields? depth (cs ++ '}' :: rest)).map Taken.pair =
        if fieldsDepth (e :: fs) ≤ depth then some (e :: fs, rest) else none := by
  -- no field begins with a brace, because each begins with its key
  have hkeyed : ∀ {key : String} {k : List Char} (ds es : List Char),
      Padded (SpelledString key) k → skipBlank (k ++ ds) ≠ '}' :: es := by
    rintro key k ds es ⟨before, text, after, hbefore, htext, -, rfl⟩
    rw [List.append_assoc, List.append_assoc, skipBlank_append hbefore,
      skipBlank_spelledString htext]
    obtain ⟨body, -, rfl⟩ := htext
    exact fun hbrace => absurd (List.cons.inj hbrace).1 (by decide)
  induction fs generalizing e cs with
  | nil =>
    obtain ⟨k, v, hk, hv, rfl⟩ := h
    obtain ⟨after, hafter, -, hvalue⟩ :=
      (hread e List.mem_cons_self).padded hv depth (stops_cons (c := '}') (by decide) rest)
    have hassoc : k ++ ':' :: v ++ '}' :: rest = k ++ ':' :: (v ++ '}' :: rest) := by simp
    rw [hassoc]
    refine ⟨fun ds => hkeyed _ ds hk, ?_⟩
    rw [fields?_pair, key?_of_spelled hk, Option.bind_some, hvalue, fieldsDepth, fieldsDepth,
      Nat.max_zero]
    exact bind_following_close (f := fun j => (e.1, j))
      (skipBlank_append_cons hafter (by decide) rest)
  | cons d fs ih =>
    obtain ⟨text, more, ⟨k, v, hk, hv, rfl⟩, hmore, rfl⟩ := h
    obtain ⟨after, hafter, -, hvalue⟩ := (hread e List.mem_cons_self).padded hv depth
      (stops_cons (c := ',') (by decide) (more ++ '}' :: rest))
    obtain ⟨-, hfields⟩ := ih (fun d hd => hread d (List.mem_cons_of_mem e hd)) hmore
    have hassoc : k ++ ':' :: v ++ ',' :: more ++ '}' :: rest =
        k ++ ':' :: (v ++ ',' :: (more ++ '}' :: rest)) := by simp
    rw [hassoc]
    refine ⟨fun ds => hkeyed _ ds hk, ?_⟩
    rw [fields?_pair, key?_of_spelled hk, Option.bind_some, hvalue, fieldsDepth,
      if_congr Nat.max_le rfl rfl]
    exact bind_following_comma (f := fun j => (e.1, j)) (by decide)
      (skipBlank_append_cons hafter (by decide) _) hfields

theorem reads_array {js : List (Json Number)} (hread : ∀ j ∈ js, Reads j) : Reads (.array js) := by
  rintro _ ⟨inner, hinner, rfl⟩ depth rest -
  have htext : '[' :: inner ++ [']'] ++ rest = '[' :: (inner ++ ']' :: rest) := by simp
  rw [htext]
  refine (value?_pair depth _).trans ?_
  cases js with
  | nil => exact opened_nil (skipBlank_append_cons hinner (by decide) rest)
  | cons j js =>
    have hitems := fun depth => items?_of_separated hread hinner depth rest
    exact opened_of_read (hitems 0).1 fun depth => (hitems depth).2

theorem reads_object {fields : Entries (Json Number)} (hkeys : fields.Distinct)
    (hread : ∀ e ∈ fields.toList, Reads e.2) : Reads (.object fields) := by
  obtain ⟨fs⟩ := fields
  rintro _ ⟨inner, hinner, rfl⟩ depth rest -
  have htext : '{' :: inner ++ ['}'] ++ rest = '{' :: (inner ++ '}' :: rest) := by simp
  rw [htext]
  refine (value?_pair depth _).trans ?_
  cases fs with
  | nil => exact opened_nil (skipBlank_append_cons hinner (by decide) rest)
  | cons e fs =>
    have hfields := fun depth => fields?_of_separated hread hinner depth rest
    refine (opened_of_read (hfields 0).1 fun depth => (hfields depth).2).trans ?_
    rw [Function.comp_apply, Entries.ofList_of_distinct hkeys]
    rfl

/-- **Every text of the data is read**, in front of what no number goes on with. -/
theorem reads {j : Json Number} (h : j.DistinctKeys) : Reads j := by
  induction h with
  | null =>
    rintro _ rfl depth rest -
    exact (value?_pair _ _).trans (if_pos (Nat.zero_le _)).symm
  | bool b =>
    cases b <;>
    · rintro _ rfl depth rest -
      exact (value?_pair _ _).trans (if_pos (Nat.zero_le _)).symm
  | number n =>
    intro cs hcs depth rest hrest
    have hnumber := number?_append (numberText_iff.mp hcs) hrest
    exact (value?_of_number? hnumber).trans (if_pos (Nat.zero_le _)).symm
  | string s =>
    intro cs hcs depth rest _
    have hquoted := quoted?_of_spelled hcs rest
    obtain ⟨body, -, rfl⟩ := hcs
    refine (value?_pair _ _).trans (Eq.trans ?_ (if_pos (Nat.zero_le _)).symm)
    exact congrArg (Option.map (Prod.map Json.string id)) hquoted
  | array _ ih => exact reads_array ih
  | object hkeys _ ih => exact reads_object hkeys ih

theorem read?_of_spelled {j : Json Number} (h : j.DistinctKeys) {s : String}
    (hs : Padded (Spelled NumberText j) s.toList) :
    read? s = if j.depth ≤ maxDepth then some j else none := by
  obtain ⟨after, hafter, -, hvalue⟩ := (reads h).padded hs maxDepth (stops_nil _)
  rw [List.append_nil, List.append_nil] at hvalue
  have hend : skipBlank after = [] := List.dropWhile_eq_nil_iff.mpr hafter
  rw [read?]
  by_cases hdepth : j.depth ≤ maxDepth
  · rw [if_pos hdepth] at hvalue ⊢
    obtain ⟨t, ht, he⟩ := Option.map_eq_some_iff.mp hvalue
    obtain ⟨hj, hrest⟩ := Prod.mk.inj he
    rw [ht]
    dsimp only
    rw [hrest, if_pos hend, hj]
  · rw [if_neg hdepth] at hvalue ⊢
    rw [Option.map_eq_none_iff.mp hvalue]

/-! ## Printed data -/

theorem itemChars_eq (js : List (Json Number)) : itemChars js = js.map chars := by
  induction js with
  | nil => rfl
  | cons j js ih => exact congrArg (_ :: ·) ih

theorem fieldChars_eq (fs : List (String × Json Number)) :
    fieldChars fs = fs.map fun e => jsonString e.1 ++ ':' :: chars e.2 := by
  induction fs with
  | nil => rfl
  | cons e fs ih => exact congrArg (_ :: ·) ih

/-- **What is printed is a text of the data.** -/
theorem spelled_chars {j : Json Number} (h : j.DistinctKeys) :
    Spelled (fun n cs => cs = numberChars n) j j.chars := by
  induction h with
  | null => rfl
  | bool b => cases b <;> rfl
  | number n => rfl
  | string s => exact spelledString_jsonString s
  | array _ ih =>
    rw [Spelled, chars, spelledItems_eq, itemChars_eq]
    refine ⟨_, separated_intercalate ?_, rfl⟩
    rw [List.forall₂_map_left_iff, List.forall₂_map_right_iff, List.forall₂_same]
    exact fun j hj => padded_of (ih j hj)
  | @object fields _ _ ih =>
    obtain ⟨fs⟩ := fields
    rw [Spelled, chars, spelledFields_eq, fieldChars_eq]
    refine ⟨_, separated_intercalate ?_, rfl⟩
    rw [List.forall₂_map_left_iff, List.forall₂_map_right_iff, List.forall₂_same]
    exact fun e he =>
      ⟨_, _, padded_of (spelledString_jsonString e.1), padded_of (ih e he), rfl⟩

/-! ## The library -/

/-- **The library is strict.** -/
theorem strict_library : library.Strict where
  writes {j} h := by
    have htext : (library.write j).toList = j.chars := String.toList_ofList
    have hnumeral : ∀ n, (library.numeral n).toList = numberChars n := fun n =>
      String.toList_ofList
    rw [htext]
    simp only [hnumeral]
    exact padded_of (spelled_chars h)
  reads hkeys hdepth hs := (read?_of_spelled hkeys hs).trans (if_pos hdepth)
  integer n := by
    have hnumber : library.number? (library.numeral (.int n)) = some (.int n) := by
      refine numberText_iff.mpr ?_
      have hread := number?_int64Chars n (stops_nil _)
      rwa [List.append_nil] at hread
    exact Option.bind_eq_some_iff.mpr ⟨_, hnumber, rfl⟩
  finite x := by
    by_cases hx : x.isFinite = true
    · exact (congrArg Option.isSome (if_pos hx)).trans hx.symm
    · exact (congrArg Option.isSome (if_neg hx)).trans (Bool.eq_false_iff.mpr hx).symm
  marked {x n} h := by
    obtain ⟨hx, hn⟩ := Option.ite_none_right_eq_some.mp h
    obtain rfl := Option.some.inj hn
    have htext : (library.numeral (.double x)).toList = jsonText x := String.toList_ofList
    rw [htext]
    exact marked_jsonText hx
  apart {s n} h hmark := by
    cases n with
    | double x => rfl
    | int i =>
      rw [not_marked_of_number?_int (readNumber?_eq_some_iff.mp h)] at hmark
      cases hmark

/-- **A finite double is read back** if its digits and the power of ten that they are scaled by are
doubles. -/
theorem rereads_of_exact {x : Float} (hx : x.isFinite = true)
    (hexact : (Decimal.shortest .even x.abs).written.Exact) : library.Rereads x := by
  have hnumber : library.number? (library.numeral (.double x)) = some (.double x) := by
    refine numberText_iff.mpr ?_
    have hread := number?_jsonText hx hexact (stops_nil _)
    rwa [List.append_nil] at hread
  refine Option.bind_eq_some_iff.mpr ⟨.double x, if_pos hx, ?_⟩
  exact Option.bind_eq_some_iff.mpr ⟨_, hnumber, rfl⟩

end Json

namespace Value

/-- Escapes in a key, keys out of order, the least integer, a negative zero, and an infinity. -/
theorem ofJson_read?_write_mixed :
    let v := object ⟨[("b\"\n", array [int Int64.minValue, double (-0.0)]),
      ("a", double (1.0 / 0.0))]⟩
    Json.library.Strict ∧ v.DistinctKeys ∧ v.depth ≤ Json.maxDepth ∧
      (∀ x ∈ v.doubles, x.isFinite = true → Json.library.Rereads x) ∧
      readJson? v.json =
        some (object ⟨[("b\"\n", array [int Int64.minValue, double (-0.0)]), ("a", null)]⟩) := by
  intro v
  have hkeys : v.DistinctKeys := by
    have harray : (array [int Int64.minValue, double (-0.0)]).DistinctKeys :=
      .array (by simp [DistinctKeys.int, DistinctKeys.double])
    refine .object ?_ (by simp [harray, DistinctKeys.double])
    show List.Nodup _
    decide
  have hdepth : v.depth ≤ Json.maxDepth := by decide
  have hinfinite : (1.0 / 0.0 : Float).isFinite = false := by decide
  have hdoubles : ∀ x ∈ v.doubles, x.isFinite = true → Json.library.Rereads x := by
    intro x hx hfinite
    rcases List.mem_pair.mp hx with rfl | rfl
    · have hwritten : (Decimal.shortest .even (-0.0 : Float).abs).written = ⟨0, -1⟩ := by
        decide +kernel
      exact Json.rereads_of_exact hfinite (hwritten ▸ ⟨by decide, by decide⟩)
    · rw [hinfinite] at hfinite
      cases hfinite
  refine ⟨Json.strict_library, hkeys, hdepth, hdoubles, ?_⟩
  have hread := ofJson_read?_write Json.strict_library hkeys hdepth hdoubles
  have hzero : ofFloat (-0.0) = double (-0.0) := if_pos (by decide)
  have hnull : ofFloat (1.0 / 0.0) = null := if_neg (by rw [hinfinite]; decide)
  have hback : v.mapDoubles ofFloat =
      object ⟨[("b\"\n", array [int Int64.minValue, double (-0.0)]), ("a", null)]⟩ := by
    simp only [v, mapDoubles, mapFields, mapItems, hzero, hnull]
  exact hread.trans (congrArg some hback)

/-- Arrays inside one another around an empty one. -/
def nested : Nat → Value
  | 0 => .array []
  | n + 1 => .array [nested n]

theorem distinctKeys_nested (n : Nat) : (nested n).DistinctKeys := by
  induction n with
  | zero => exact .array (List.forall_mem_nil _)
  | succ n ih => exact .array fun w hw => List.mem_singleton.mp hw ▸ ih

theorem depth_nested (n : Nat) : (nested n).depth = n + 1 := by
  induction n with
  | zero => rfl
  | succ n ih => rw [nested, depth, itemsDepth, itemsDepth, ih, Nat.max_zero]

theorem doubles_nested (n : Nat) : (nested n).doubles = [] := by
  induction n with
  | zero => rfl
  | succ n ih => rw [nested, doubles, itemDoubles, itemDoubles, ih, List.append_nil]

/-- **Data that is nested too deep is not read**, though the text of the value spells it. -/
theorem read?_write_eq_none {v : Value} (hkeys : v.DistinctKeys) (hdepth : Json.maxDepth < v.depth)
    (hdoubles : ∀ x ∈ v.doubles, x.isFinite = true → Json.library.Rereads x) :
    Json.library.read? (Json.library.write (v.toJson Json.numbers)) = none := by
  have hspelled := (Json.strict_library.writes (distinctKeys_toJson Json.numbers hkeys)).mono
    fun cs => Json.strict_library.spelled_toJson hkeys hdoubles
  have hdeep : Json.maxDepth < (v.toJson Json.library.rereads).depth := by
    rwa [depth_toJson Json.library.rereads hkeys]
  have hread := Json.read?_of_spelled (distinctKeys_toJson Json.library.rereads hkeys) hspelled
  exact hread.trans (if_neg (not_le.mpr hdeep))

/-- **Data that is nested deeper does not read back**, from a strict library and with no double that
might be read otherwise. -/
theorem ofJson_read?_write_ne :
    Json.library.Strict ∧ (nested Json.maxDepth).DistinctKeys ∧
      (nested Json.maxDepth).doubles = [] ∧
      (Json.library.read? (Json.library.write
          ((nested Json.maxDepth).toJson Json.library.toJsonNumbers))).map
        (ofJson Json.library.toJsonNumbers) ≠ some ((nested Json.maxDepth).mapDoubles ofFloat) := by
  have hkeys := distinctKeys_nested Json.maxDepth
  have hdoubles := doubles_nested Json.maxDepth
  have hdepth : Json.maxDepth < (nested Json.maxDepth).depth := by
    rw [depth_nested]
    exact Nat.lt_succ_self _
  refine ⟨Json.strict_library, hkeys, hdoubles, ?_⟩
  have hread := read?_write_eq_none hkeys hdepth fun x hx => by
    rw [hdoubles] at hx
    cases hx
  have hread' : Json.library.read? (Json.library.write
      ((nested Json.maxDepth).toJson Json.library.toJsonNumbers)) = none := hread
  rw [hread', Option.map_none]
  exact nofun

end Value

end DataBinding
