import DataBinding.Proofs.Expr.Literals
import DataBinding.Proofs.Operation.Ordered

/-!
# Integers in words

An operation takes an integer and the text of that integer alike, at every position where it takes a
number. What it reads there goes through the number that the parameter counts as, with one
exception: where two parameters have no order as numbers, `eq` compares them as values. An integer
has no order only with what is not a number, and to that neither the integer nor its text is equal.

* `Value.number?_text`: the text of an integer counts as the integer.
* `takesNumber`: the positions where operations take numbers.
* `respell`: parameters with texts in the place of some integers.
* `respell_operations` in each family: what the functions of the operations make of them.
* `Registry.call_respell`: the calls.
-/

namespace DataBinding

/-! ## Spellings of one number -/

namespace Value

/-- The text of an integer counts as the integer. -/
theorem number?_text (n : Int64) : (Value.string (Value.int n).text).number? = some (.int n) := by
  have htext : (Value.int n).text.toList = int64Chars n := by
    simp [text, json]
  rw [number?, htext, Number.read?, readInt?_int64Chars, Option.bind_some, toInt64?_toInt]

/-- The value, if it is an integer then as a text. -/
def respelled : Value → Value
  | .int n => .string (Value.int n).text
  | v => v

/-- A function that takes integers and their texts alike. -/
def SpelledAlike {β : Type} (f : Value → β) : Prop :=
  ∀ n, f (.string (Value.int n).text) = f (.int n)

theorem SpelledAlike.respelled {β : Type} {f : Value → β} (h : SpelledAlike f) (v : Value) :
    f v.respelled = f v := by
  cases v with
  | int n => exact h n
  | null | bool | double | string | array | object => rfl

/-- What goes through the number takes both alike. -/
theorem spelledAlike_number? : SpelledAlike number? :=
  number?_text

theorem spelledAlike_comparable : SpelledAlike Comparable := by
  intro n
  rw [Comparable, number?_text]
  rfl

/-- Only integers are spelled in another way. -/
theorem respelled_eq_or (v : Value) : v.respelled = v ∨ v.Comparable := by
  cases v with
  | int n => exact .inr ⟨.int n, rfl, rfl⟩
  | null | bool | double | string | array | object => exact .inl rfl

/-! ## Values that are no numbers -/

theorem isNaN_eq_of_sameDouble {x y : Float} (h : sameDouble x y = true) : x.isNaN = y.isNaN := by
  have hzero (u : Float.Model.UnpackedFloat) : (unsignedZero u).isNaN = u.isNaN := by
    cases u <;> rfl
  exact (hzero x.toModel.unpack).symm.trans
    ((congrArg _ ((sameDouble_iff x y).mp h)).trans (hzero y.toModel.unpack))

/-- What equals a number other than NaN is one. -/
theorem Comparable.of_beq {v w : Value} (h : (v == w) = true) (hv : v.Comparable) :
    w.Comparable := by
  cases (beq_iff_same v w).mp h with
  | null | bool | int | string => exact hv
  | double hxy =>
    obtain ⟨n, hn, hnan⟩ := hv
    obtain rfl := Option.some.inj hn
    exact ⟨_, rfl, (isNaN_eq_of_sameDouble hxy).symm.trans hnan⟩
  | array | object =>
    obtain ⟨n, hn, -⟩ := hv
    cases hn

end Value

namespace Comparison

variable {v w : Value}

theorem not_comparable_of_none (h : ordering? [v, w] = none) :
    ¬ (v.Comparable ∧ w.Comparable) := by
  rintro ⟨hv, hw⟩
  obtain ⟨m, n, -, -, horder⟩ := exists_order hv hw
  cases horder.symm.trans h

/-- Without an order a number equals nothing. -/
theorem beq_of_none (h : ordering? [v, w] = none) (hvw : v.Comparable ∨ w.Comparable) :
    (v == w) = false := by
  refine Bool.eq_false_iff.mpr fun hbeq => not_comparable_of_none h ?_
  rcases hvw with hv | hw
  · exact ⟨hv, hv.of_beq hbeq⟩
  · exact ⟨hw.of_beq (Value.beq_symm hbeq), hw⟩

end Comparison

/-! ## Parameters in words -/

/-- Whether the built-in operation of a name takes a number at a position. -/
def takesNumber (name : String) (i : Nat) : Bool :=
  if name ∈ ["sum", "subtract", "multiply", "divide", "gt", "gte", "lt", "lte", "eq", "int",
    "double"] then true
  else if name = "substr" then i == 1 || i == 2
  else if name = "insert" then i == 2
  else if name = "removeIndex" then i == 1
  else false

/-- The parameters with texts in the place of the integers at some positions. -/
def respell (chosen : Nat → Bool) (params : List Value) : List Value :=
  params.mapIdx fun i p => if chosen i then p.respelled else p

section Parameters

variable {chosen : Nat → Bool} {ps : List Value} {i : Nat} {p v w : Value} {β : Type}

@[simp] theorem length_respell : (respell chosen ps).length = ps.length :=
  List.length_mapIdx

theorem getElem?_respell :
    (respell chosen ps)[i]? = ps[i]?.map fun p => if chosen i then p.respelled else p :=
  List.getElem?_mapIdx

theorem respell_nil : respell chosen [] = [] :=
  List.mapIdx_nil

theorem respell_cons : respell chosen (p :: ps) =
    (if chosen 0 then p.respelled else p) :: respell (fun i => chosen (i + 1)) ps :=
  List.mapIdx_cons

theorem Value.SpelledAlike.ite {f : Value → β} (h : SpelledAlike f) (t : Bool) (v : Value) :
    f (if t then v.respelled else v) = f v := by
  cases t with
  | true => exact h.respelled v
  | false => rfl

theorem getElem?_respell_of_not (h : chosen i = false) : (respell chosen ps)[i]? = ps[i]? := by
  rw [getElem?_respell, h]
  exact Option.map_id'

/-- No position, no other parameters. -/
theorem respell_of_none (h : ∀ i, chosen i = false) : respell chosen ps = ps :=
  List.ext_getElem? fun i => getElem?_respell_of_not (h i)

namespace Params

theorem param_respell_of_not (h : chosen i = false) : param (respell chosen ps) i = param ps i := by
  rw [param, getElem?_respell_of_not h, length_respell, param]

theorem read_respell_of_not (read : Value → Option β) (h : chosen i = false) :
    Params.read read (respell chosen ps) i = Params.read read ps i := by
  rw [Params.read, param_respell_of_not h, Params.read]

/-- A step that takes integers and their texts alike. -/
theorem param_respell_bind {f : Value → Guarded β} (h : Value.SpelledAlike f) :
    (param (respell chosen ps) i).bind f = (param ps i).bind f := by
  rw [param, getElem?_respell, length_respell, param]
  cases ps[i]? with
  | none => rfl
  | some p => exact h.ite (chosen i) p

theorem read_number_respell :
    Params.read Value.number? (respell chosen ps) i = Params.read Value.number? ps i := by
  refine param_respell_bind fun n => ?_
  rw [Value.number?_text]
  rfl

theorem index_respell : index (respell chosen ps) i = index ps i := by
  refine param_respell_bind fun n => ?_
  rw [Value.number?_text]
  rfl

theorem indexD_respell (default : Guarded Nat) :
    indexD (respell chosen ps) i default = indexD ps i default := by
  rw [indexD, getElem?_respell, index_respell, indexD]
  cases ps[i]? with
  | none => rfl
  | some p => rfl

theorem readAll_respell (chosen : Nat → Bool) (i : Nat) (ps : List Value) :
    readAll Value.number? i (respell chosen ps) = readAll Value.number? i ps := by
  induction ps generalizing chosen i with
  | nil => rfl
  | cons p ps ih =>
    rw [respell_cons, readAll, readAll, ih]
    split
    · rename_i hnone
      rw [Value.spelledAlike_number?.ite] at hnone
      rcases p.respelled_eq_or with hp | ⟨n, hn, -⟩
      · rw [hnone, hp, ite_self]
      · cases hnone.symm.trans hn
    · rename_i n hn
      rw [Value.spelledAlike_number?.ite] at hn
      rw [hn]

end Params

end Parameters

/-! ## Operations -/

/-- The function takes integers and their texts alike where the operation takes numbers. -/
def Builtin.Respells (b : Builtin) : Prop :=
  ∀ (chosen : Nat → Bool) params, (∀ i, chosen i = true → takesNumber b.name i = true) →
    b.run (respell chosen params) = b.run params

/-- An operation that takes no numbers has no other parameters. -/
theorem Builtin.respells_of_none {b : Builtin} (h : ∀ i, takesNumber b.name i = false) :
    b.Respells := by
  intro chosen params hchosen
  rw [respell_of_none fun i => Bool.eq_false_iff.mpr fun hi => ?_]
  exact Bool.eq_false_iff.mp (h i) (hchosen i hi)

variable {chosen : Nat → Bool} {params : List Value}

namespace Arithmetic

theorem reduce_respell (go : Number → List Number → Guarded Value) (chosen : Nat → Bool)
    (params : List Value) : reduce go (respell chosen params) = reduce go params := by
  rw [reduce, Params.readAll_respell, reduce]

theorem respell_operations : ∀ b ∈ operations, b.Respells := by
  refine List.forall_iff_forall_mem.mp ⟨?sum, ?subtract, ?multiply, ?divide⟩
  case sum | subtract | multiply | divide =>
    intro chosen params _
    exact reduce_respell _ chosen params

end Arithmetic

namespace Comparison

theorem ordering?_respell (chosen : Nat → Bool) (params : List Value) :
    ordering? (respell chosen params) = ordering? params := by
  match params with
  | [] | [_] => rfl
  | _ :: _ :: _ :: _ =>
    simp only [respell_cons]
    rfl
  | [v, w] =>
    simp only [respell_cons, respell_nil]
    rw [ordering?, Value.spelledAlike_number?.ite, Value.spelledAlike_number?.ite, ordering?]

theorem ordered_respell (accept : Ordering → Bool) (chosen : Nat → Bool) (params : List Value) :
    ordered accept (respell chosen params) = ordered accept params := by
  rw [ordered, ordering?_respell, ordered]

/-- Where numbers have no order, their spelling makes no values equal and none different. -/
theorem beq_respell {v w : Value} (h : ordering? [v, w] = none) (s t : Bool) :
    ((if s then v.respelled else v) == (if t then w.respelled else w)) = (v == w) := by
  by_cases hvw : v.Comparable ∨ w.Comparable
  · have hcomparable := Value.spelledAlike_comparable.ite
    have hnone : ordering? [if s then v.respelled else v, if t then w.respelled else w] = none := by
      refine ordering?_of_not_comparable ?_
      rw [hcomparable, hcomparable]
      exact not_comparable_of_none h
    rw [beq_of_none h hvw, beq_of_none hnone]
    rwa [hcomparable, hcomparable]
  · obtain ⟨hv, hw⟩ := not_or.mp hvw
    rw [v.respelled_eq_or.resolve_right hv, w.respelled_eq_or.resolve_right hw, ite_self, ite_self]

theorem eq_respell (chosen : Nat → Bool) (params : List Value) :
    Comparison.eq (respell chosen params) = Comparison.eq params := by
  unfold Comparison.eq
  rw [ordering?_respell]
  cases h : ordering? params with
  | some o => rfl
  | none =>
    match params with
    | [] | [_] => rfl
    | _ :: _ :: _ :: _ =>
      simp only [respell_cons]
    | [v, w] =>
      simp only [respell_cons, respell_nil]
      exact congrArg (fun t => Except.ok (Value.bool t)) (beq_respell h (chosen 0) (chosen 1))

theorem respell_operations : ∀ b ∈ operations, b.Respells := by
  refine List.forall_iff_forall_mem.mp ⟨?gt, ?gte, ?lt, ?lte, ?eq⟩
  case gt | gte | lt | lte =>
    intro chosen params _
    exact ordered_respell _ chosen params
  case eq =>
    intro chosen params _
    exact eq_respell chosen params

end Comparison

theorem Logic.respell_operations : ∀ b ∈ operations, b.Respells := by
  refine List.forall_iff_forall_mem.mp ⟨?and, ?or, ?not, ?condition⟩
  case and | or | not | condition =>
    exact Builtin.respells_of_none fun i => rfl

namespace Strings

theorem substr_respell (h : chosen 0 = false) : substr (respell chosen params) = substr params := by
  rw [substr, Params.read_respell_of_not _ h, Params.index_respell, substr]
  simp only [Params.indexD_respell]

theorem respell_operations : ∀ b ∈ operations, b.Respells := by
  refine List.forall_iff_forall_mem.mp ⟨?concat, ?capitalize, ?uppercase, ?lowercase, ?substr⟩
  case concat | capitalize | uppercase | lowercase =>
    exact Builtin.respells_of_none fun i => rfl
  case substr =>
    intro chosen params hchosen
    exact substr_respell (Bool.eq_false_iff.mpr fun h => absurd (hchosen 0 h) (by decide))

end Strings

namespace Arrays

theorem insert_respell (h : chosen 0 = false) (h' : chosen 1 = false) :
    insert (respell chosen params) = insert params := by
  rw [insert, Params.read_respell_of_not _ h, Params.param_respell_of_not h', insert]
  simp only [Params.index_respell, getElem?_respell]
  cases params[2]? with
  | none => rfl
  | some p => rfl

theorem removeIndex_respell (h : chosen 0 = false) :
    removeIndex (respell chosen params) = removeIndex params := by
  rw [removeIndex, Params.read_respell_of_not _ h, removeIndex]
  simp only [Params.indexD_respell]

theorem respell_operations : ∀ b ∈ operations, b.Respells := by
  refine List.forall_iff_forall_mem.mp ⟨?insert, ?remove, ?removeIndex, ?contains, ?union⟩
  case insert =>
    intro chosen params hchosen
    exact insert_respell (Bool.eq_false_iff.mpr fun h => absurd (hchosen 0 h) (by decide))
      (Bool.eq_false_iff.mpr fun h => absurd (hchosen 1 h) (by decide))
  case removeIndex =>
    intro chosen params hchosen
    exact removeIndex_respell (Bool.eq_false_iff.mpr fun h => absurd (hchosen 0 h) (by decide))
  case remove | contains | union =>
    exact Builtin.respells_of_none fun i => rfl

end Arrays

namespace Kinds

theorem int_respell : int (respell chosen params) = int params := by
  rw [int, Params.read_number_respell, int]

theorem double_respell : double (respell chosen params) = double params := by
  rw [double, Params.read_number_respell, double]

theorem respell_operations : ∀ b ∈ operations, b.Respells := by
  refine List.forall_iff_forall_mem.mp ⟨?isNull, ?isEmpty, ?length, ?int, ?double, ?string⟩
  case int =>
    intro chosen params _
    exact int_respell
  case double =>
    intro chosen params _
    exact double_respell
  case isNull | isEmpty | length | string =>
    exact Builtin.respells_of_none fun i => rfl

end Kinds

theorem respell_builtins : ∀ b ∈ builtins, b.Respells := by
  simp only [builtins, List.forall_mem_append]
  exact ⟨⟨⟨⟨⟨Arithmetic.respell_operations, Comparison.respell_operations⟩,
    Logic.respell_operations⟩, Strings.respell_operations⟩, Arrays.respell_operations⟩,
    Kinds.respell_operations⟩

/-- **Integers and their texts are interchangeable.** The text of an integer counts as the integer,
and where a built-in operation takes numbers, texts in the place of any of the integers give the
same result or the same error. -/
theorem Registry.call_respell :
    (∀ n, (Value.string (Value.int n).text).number? = some (.int n)) ∧
    ∀ name (chosen : Nat → Bool) params,
      builtin.call name (respell (fun i => chosen i && takesNumber name i) params) =
        builtin.call name params := by
  refine ⟨Value.number?_text, fun name chosen params => ?_⟩
  cases hop : builtin.get? name with
  | none => rw [call, call, hop]
  | some op =>
    obtain ⟨b, hb, rfl, rfl⟩ := exists_builtin hop
    rw [call, call, hop]
    refine (call_operation b _).trans (.trans ?_ (call_operation b params).symm)
    rw [length_respell, respell_builtins b hb _ params fun i hi => (Bool.and_eq_true_iff.mp hi).2]

end DataBinding
