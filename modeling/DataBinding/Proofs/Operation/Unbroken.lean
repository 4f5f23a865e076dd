import DataBinding.Operation.Registry
import DataBinding.Proofs.Entries
import DataBinding.Proofs.Number

/-!
# The functions of built-in operations do not break off

The function of a built-in operation takes parameters and elements of arrays by position and
computes with integers. The arity that the operation declares is enough for every position that its
function takes a parameter at, each position in an array is compared with the length before it is
used, and integers are computed with only where there is a result.

* `Guarded.Proper`: the function ends with a thing or an error of its own. `Proper.bind`: step by
  step.
* `Params.proper_param`, `Params.proper_readAll`, `proper_insertAt`, `proper_steady`: what one step
  needs.
* `Arrays.proper_operations` and the like: every operation, from the least number of parameters.
* `Registry.get?_of_mem`, `Registry.call_of_mem`: a built-in operation is called by its name.
-/

namespace DataBinding

/-! ## Ending by oneself -/

/-- Whether the error is one that a built-in operation reports. That an operation is missing none
of them says, and the others stand for a breach. -/
def OperationError.isReported : OperationError → Bool
  | .notFound _ | .missingParameter _ | .other _ => false
  | .arity .. | .invalidParameter .. | .outOfBounds | .divisionByZero | .overflow => true

namespace Guarded

variable {α β : Type}

/-- The function does not break off. -/
def Unbroken (r : Guarded α) : Prop :=
  ∀ b, r ≠ .error (.breach b)

/-- The function ends with a thing or an error of its own. -/
def Proper (r : Guarded α) : Prop :=
  ∀ h, r = .error h → ∃ e, h = .error e ∧ e.isReported = true

theorem proper_ok (a : α) : Proper (.ok a) :=
  nofun

theorem proper_fail {e : OperationError} (he : e.isReported = true) :
    Proper (fail e : Guarded α) := by
  intro h heq
  cases heq
  exact ⟨e, rfl, he⟩

/-- One step after the other. -/
theorem Proper.bind {r : Guarded α} {f : α → Guarded β} (hr : r.Proper)
    (hf : ∀ a, Proper (f a)) : Proper (r.bind f) := by
  cases r with
  | ok a => exact hf a
  | error e =>
    intro h heq
    cases heq
    exact hr e rfl

theorem Proper.map {r : Guarded α} (hr : r.Proper) (f : α → β) : Proper (r.map f) := by
  cases r with
  | ok a => exact proper_ok (f a)
  | error e =>
    intro h heq
    cases heq
    exact hr e rfl

theorem Proper.unbroken {r : Guarded α} (h : r.Proper) : r.Unbroken := by
  rintro b rfl
  obtain ⟨e, he, -⟩ := h (.breach b) rfl
  cases he

/-- What does not break off ends with a thing or an error, as its caller is told. -/
theorem Unbroken.eq_mapError {r : Guarded α} (h : r.Unbroken) :
    r = (r.mapError Halt.toError).mapError Halt.error := by
  cases r with
  | ok a => rfl
  | error e =>
    cases e with
    | error e => rfl
    | breach b => exact absurd rfl (h b)

end Guarded

open Guarded

/-! ## Parameters -/

namespace Params

variable {α : Type} {ps : List Value} {i : Nat}

theorem proper_readAll (read : Value → Option α) (i : Nat) (ps : List Value) :
    Proper (readAll read i ps) := by
  induction ps generalizing i with
  | nil => exact proper_ok []
  | cons p ps ih =>
    rw [readAll]
    split
    · exact proper_fail rfl
    · exact (ih (i + 1)).map _

theorem proper_param (h : i < ps.length) : Proper (param ps i) := by
  rw [param, List.getElem?_eq_getElem h]
  exact proper_ok _

theorem proper_read (read : Value → Option α) (h : i < ps.length) :
    Proper (Params.read read ps i) := by
  refine (proper_param h).bind fun p => ?_
  split
  · exact proper_fail rfl
  · exact proper_ok _

theorem proper_index (h : i < ps.length) : Proper (index ps i) := by
  refine (proper_param h).bind fun p => ?_
  split
  · split
    · exact proper_fail rfl
    · exact proper_ok _
  · exact proper_fail rfl

/-- Whether the parameter is there is looked up before it is taken. -/
theorem proper_indexD {default : Guarded Nat} (h : default.Proper) :
    Proper (indexD ps i default) := by
  rw [indexD]
  split
  · rename_i hsome
    exact proper_index (List.getElem?_eq_some_iff.mp hsome).1
  · exact h

end Params

/-! ## Arrays by position -/

theorem proper_insertAt {items : List Value} {i : Nat} (h : i ≤ items.length) (v : Value) :
    Proper (insertAt items i v) := by
  rw [insertAt, if_pos h]
  exact proper_ok _

theorem proper_removeAt {items : List Value} {i : Nat} (h : i < items.length) :
    Proper (removeAt items i) := by
  rw [removeAt, if_pos h]
  exact proper_ok _

/-! ## Integers -/

theorem proper_checked {α : Type} (t : Integers α) (op : IntOp) (a b : α) :
    Proper (t.checked op a b) := by
  rw [t.checked_eq]
  exact proper_ok _

/-! ## Operations -/

/-- The least number of parameters. -/
def Arity.least : Arity → Nat
  | .any => 0
  | .fixed n => n
  | .range min _ => min

theorem Arity.least_le_of_accepts {arity : Arity} {count : Nat} (h : arity.accepts count = true) :
    arity.least ≤ count := by
  match arity with
  | .any => exact Nat.zero_le count
  | .fixed n => exact (beq_iff_eq.mp h).ge
  | .range min none => exact of_decide_eq_true h
  | .range min (some max) => exact of_decide_eq_true (Bool.and_eq_true_iff.mp h).1

/-- The function ends with a thing or an error of its own on as many parameters as the arity asks
for. -/
def Builtin.Proper (b : Builtin) : Prop :=
  ∀ params, b.arity.least ≤ params.length → Guarded.Proper (b.run params)

variable {params : List Value}

namespace Arithmetic

variable {op : Number → Number → Guarded (Option Number)} {failure : OperationError}

theorem proper_steady (hop : Number.Steady op) (a b : Number) : Proper (op a b) := by
  rw [hop a b]
  exact proper_ok _

theorem proper_combine (hop : Number.Steady op) (hfailure : failure.isReported = true)
    (n : Number) (operands : List Number) : Proper (combine op failure n operands) := by
  induction operands generalizing n with
  | nil => exact proper_ok _
  | cons m operands ih =>
    refine (proper_steady hop n m).bind fun r => ?_
    cases r with
    | some r => exact ih r
    | none => exact proper_fail hfailure

theorem proper_fold (hop : Number.Steady op) (hfailure : failure.isReported = true)
    {start : Guarded (Option Number)} (hstart : start.Proper) (operands : List Number) :
    Proper (fold op failure start operands) := by
  refine hstart.bind fun r => ?_
  cases r with
  | some n => exact proper_combine hop hfailure n operands
  | none => exact proper_fail rfl

theorem proper_reduce {go : Number → List Number → Guarded Value}
    (h : ∀ n rest, Proper (go n rest)) (params : List Value) : Proper (reduce go params) := by
  refine (Params.proper_readAll _ 0 params).bind fun numbers => ?_
  cases numbers with
  | nil => exact proper_fail rfl
  | cons n rest => exact h n rest

theorem proper_operations : ∀ b ∈ operations, b.Proper := by
  refine List.forall_iff_forall_mem.mp ⟨?sum, ?subtract, ?multiply, ?divide⟩
  case sum =>
    intro params _
    exact proper_reduce (fun n => proper_fold Number.steady_checkedAdd rfl (proper_ok _)) params
  case subtract =>
    intro params _
    refine proper_reduce (fun n rest => ?_) params
    exact proper_fold Number.steady_checkedSub rfl (proper_steady Number.steady_checkedMul n _) _
  case multiply =>
    intro params _
    exact proper_reduce (fun n => proper_fold Number.steady_checkedMul rfl (proper_ok _)) params
  case divide =>
    intro params _
    refine proper_reduce (fun n rest => ?_) params
    exact proper_fold Number.steady_checkedDiv rfl (proper_steady Number.steady_checkedMul n _) _

end Arithmetic

namespace Comparison

theorem proper_ordered (accept : Ordering → Bool) (params : List Value) :
    Proper (ordered accept params) :=
  proper_ok _

theorem proper_eq (params : List Value) : Proper (Comparison.eq params) := by
  unfold Comparison.eq
  split
  · exact proper_ok _
  · split
    · exact proper_ok _
    · exact proper_ok _

theorem proper_operations : ∀ b ∈ operations, b.Proper := by
  refine List.forall_iff_forall_mem.mp ⟨?gt, ?gte, ?lt, ?lte, ?eq⟩
  case gt | gte | lt | lte =>
    intro params _
    exact proper_ordered _ params
  case eq =>
    intro params _
    exact proper_eq params

end Comparison

namespace Logic

theorem proper_condition (h : 3 ≤ params.length) : Proper (condition params) := by
  refine (Params.proper_read _ (by omega)).bind fun b => Params.proper_param ?_
  split <;> omega

theorem proper_operations : ∀ b ∈ operations, b.Proper := by
  refine List.forall_iff_forall_mem.mp ⟨?and, ?or, ?not, ?condition⟩
  case and | or =>
    intro params _
    exact (Params.proper_readAll _ 0 params).map _
  case not =>
    intro params h
    exact (Params.proper_read _ h).map _
  case condition =>
    intro params h
    exact proper_condition h

end Logic

namespace Strings

theorem proper_mapText (f : String → String) (h : 1 ≤ params.length) :
    Proper (mapText f params) :=
  (Params.proper_read _ h).map _

/-- The position behind a run is the exact one. -/
theorem stop?_eq_some_iff {first length stop : Nat} :
    stop? first length = .ok (some stop) ↔ stop = first + length ∧ stop < UInt64.size := by
  rw [stop?, Integers.checked_eq_some_iff, positions_ofInt?_eq_some_iff]
  simp only [reduceCtorEq, false_and, not_false_eq_true, true_and]
  exact and_congr_left fun _ => Int.ofNat_inj

theorem proper_stop? (first length : Nat) : Proper (stop? first length) :=
  proper_checked positions .add first length

theorem proper_excerpt (text : String) (first length : Nat) :
    Proper (excerpt text first length) := by
  rw [excerpt]
  refine (proper_stop? first length).bind fun stop => ?_
  split
  · exact proper_fail rfl
  · split
    · exact proper_fail rfl
    · exact proper_ok _

theorem proper_substr (h : 2 ≤ params.length) : Proper (substr params) := by
  refine (Params.proper_read _ (by omega)).bind fun text => ?_
  refine (Params.proper_index h).bind fun first => ?_
  exact (Params.proper_indexD (proper_ok _)).bind fun length => proper_excerpt text first length

theorem proper_operations : ∀ b ∈ operations, b.Proper := by
  refine List.forall_iff_forall_mem.mp ⟨?concat, ?capitalize, ?uppercase, ?lowercase, ?substr⟩
  case concat =>
    intro params _
    exact (Params.proper_readAll _ 0 params).map _
  case capitalize | uppercase | lowercase =>
    intro params h
    exact proper_mapText _ h
  case substr =>
    intro params h
    exact proper_substr h

end Strings

namespace Arrays

theorem proper_insert (h : 2 ≤ params.length) : Proper (insert params) := by
  refine (Params.proper_read _ (by omega)).bind fun items => ?_
  refine (Params.proper_param h).bind fun value => ?_
  split
  · rename_i hsome
    refine (Params.proper_index (List.getElem?_eq_some_iff.mp hsome).1).bind fun i => ?_
    split
    · exact proper_fail rfl
    · rename_i hle
      exact (proper_insertAt (Nat.le_of_not_lt hle) value).map _
  · exact proper_ok _

theorem proper_lastIndex (items : List Value) : Proper (lastIndex items) := by
  refine (proper_checked positions .sub items.length 1).bind fun i => ?_
  cases i with
  | some i => exact proper_ok i
  | none => exact proper_fail rfl

/-- The position of the last element is the exact one. -/
theorem lastIndex_eq_ok_iff {items : List Value} {i : Nat} :
    lastIndex items = .ok i ↔ i + 1 = items.length ∧ i < UInt64.size := by
  have hchecked : positions.checked .sub items.length 1 = .ok (some i) ↔
      i + 1 = items.length ∧ i < UInt64.size := by
    rw [Integers.checked_eq_some_iff, positions_ofInt?_eq_some_iff]
    simp only [reduceCtorEq, false_and, not_false_eq_true, true_and]
    refine and_congr_left fun _ => ?_
    change (i : Int) = (items.length : Int) - ((1 : Nat) : Int) ↔ _
    omega
  rw [← hchecked, lastIndex, positions.checked_eq]
  cases (if IntOp.sub = .div ∧ positions.value 1 = 0 then none
    else positions.ofInt? (IntOp.sub.exact (positions.value items.length) (positions.value 1))) with
  | some j => simp [bind, Except.bind, pure, Except.pure]
  | none => simp [bind, Except.bind, Guarded.fail]

theorem proper_remove (h : 2 ≤ params.length) : Proper (remove params) := by
  refine (Params.proper_read _ (by omega)).bind fun items => ?_
  exact (Params.proper_param h).bind fun value => proper_ok _

theorem proper_removeIndex (h : 1 ≤ params.length) : Proper (removeIndex params) := by
  refine (Params.proper_read _ h).bind fun items => ?_
  refine (Params.proper_indexD (proper_lastIndex items)).bind fun i => ?_
  split
  · exact proper_fail rfl
  · rename_i hlt
    exact (proper_removeAt (Nat.lt_of_not_le hlt)).map _

theorem proper_contains (h : 2 ≤ params.length) : Proper (contains params) := by
  refine (Params.proper_read _ (by omega)).bind fun items => ?_
  exact (Params.proper_param h).bind fun value => proper_ok _

theorem proper_operations : ∀ b ∈ operations, b.Proper := by
  refine List.forall_iff_forall_mem.mp ⟨?insert, ?remove, ?removeIndex, ?contains, ?union⟩
  case insert =>
    intro params h
    exact proper_insert h
  case remove =>
    intro params h
    exact proper_remove h
  case removeIndex =>
    intro params h
    exact proper_removeIndex h
  case contains =>
    intro params h
    exact proper_contains h
  case union =>
    intro params _
    exact (Params.proper_readAll _ 0 params).map _

end Arrays

namespace Kinds

theorem proper_int (h : 1 ≤ params.length) : Proper (int params) := by
  refine (Params.proper_read _ h).bind fun n => ?_
  split
  · exact proper_ok _
  · split
    · exact proper_ok _
    · exact proper_fail rfl

theorem proper_operations : ∀ b ∈ operations, b.Proper := by
  refine List.forall_iff_forall_mem.mp ⟨?isNull, ?isEmpty, ?length, ?int, ?double, ?string⟩
  case isNull =>
    intro params h
    exact (Params.proper_param h).map _
  case int =>
    intro params h
    exact proper_int h
  case isEmpty | length | double | string =>
    intro params h
    exact (Params.proper_read _ h).map _

end Kinds

/-- The functions of built-in operations end with a thing or an error of their own. -/
theorem proper_builtins : ∀ b ∈ builtins, b.Proper := by
  simp only [builtins, List.forall_mem_append]
  exact ⟨⟨⟨⟨⟨Arithmetic.proper_operations, Comparison.proper_operations⟩,
    Logic.proper_operations⟩, Strings.proper_operations⟩, Arrays.proper_operations⟩,
    Kinds.proper_operations⟩

/-! ## Calls -/

namespace Registry

/-- The operations of the registry are the built-in ones, each under its name. -/
theorem exists_builtin {name : String} {op : Operation} (h : builtin.get? name = some op) :
    ∃ b ∈ builtins, b.name = name ∧ b.operation = op := by
  have hmem := Entries.mem_of_get?_ofList h
  simp only [builtinOperations, List.map_map, List.mem_map] at hmem
  obtain ⟨b, hb, hpair⟩ := hmem
  obtain ⟨hname, hop⟩ := Prod.mk.inj hpair
  exact ⟨b, hb, hname, hop⟩

/-- The function of a built-in operation never says that an operation is missing. -/
theorem run_builtin_ne_notFound {name : String} {op : Operation} (h : builtin.get? name = some op)
    {params : List Value} (haccepts : op.arity.accepts params.length = true) (missing : String) :
    op.run params ≠ .error (.notFound missing) := by
  obtain ⟨b, hb, -, rfl⟩ := exists_builtin h
  have hproper := proper_builtins b hb params (Arity.least_le_of_accepts haccepts)
  change (b.run params).mapError Halt.toError ≠ _
  cases hrun : b.run params with
  | ok v =>
    intro heq
    cases heq
  | error halt =>
    obtain ⟨e, rfl, he⟩ := hproper halt hrun
    intro heq
    cases heq
    cases he

theorem nodup_names_builtins : (builtins.map Builtin.name).Nodup := by
  decide

/-- Each built-in operation is found under its name. -/
theorem get?_of_mem {b : Builtin} (hb : b ∈ builtins) :
    builtin.get? b.name = some b.operation := by
  have hkeys : Entries.keys ⟨builtinOperations.map fun op => (op.name, op)⟩ =
      builtins.map Builtin.name := by
    simp only [Entries.keys, builtinOperations, List.map_map]
    rfl
  have hdistinct : Entries.Distinct ⟨builtinOperations.map fun op => (op.name, op)⟩ := by
    rw [Entries.Distinct, hkeys]
    exact nodup_names_builtins
  have hpairs : builtin = ⟨⟨builtinOperations.map fun op => (op.name, op)⟩⟩ :=
    congrArg Registry.mk (Entries.ofList_of_distinct hdistinct)
  have hmem : (b.name, b.operation) ∈ builtinOperations.map fun op => (op.name, op) :=
    List.mem_map.mpr ⟨b.operation, List.mem_map_of_mem hb, rfl⟩
  rw [hpairs]
  exact Entries.find_of_mem hdistinct hmem

theorem call_operation (b : Builtin) (params : List Value) :
    b.operation.call params =
      if b.arity.accepts params.length = true then (b.run params).mapError Halt.toError
      else .error (.arity b.name b.arity params.length) := by
  rw [Operation.call, checkArity, Builtin.arity_operation, Builtin.name_operation]
  split <;> rfl

/-- On a number of parameters that it accepts, the call of a built-in operation runs its
function. -/
theorem call_of_mem {b : Builtin} (hb : b ∈ builtins) {params : List Value}
    (haccepts : b.arity.accepts params.length = true) :
    builtin.call b.name params = (b.run params).mapError Halt.toError := by
  rw [call, get?_of_mem hb]
  exact (call_operation b params).trans (if_pos haccepts)

end Registry

end DataBinding
