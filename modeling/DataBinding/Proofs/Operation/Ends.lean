import DataBinding.Proofs.Operation.Exact

/-!
# Calls of built-in operations end

The call of a built-in operation gives a value or an error, whatever its parameters are. Its
function does nothing that would break it off: it takes no parameter that is not there, changes no
array beyond its end, and computes no integer that 64 bits do not hold. So no integer has to be
given that is not the exact one.

* `ExactIntegers`: where the functions compute with integers, and what.
* `Registry.call_builtin_unbroken`: no call breaks off.
-/

namespace DataBinding

open Arithmetic (total product)

/-- The integers that the functions of built-in operations compute are the exact ones. -/
structure ExactIntegers : Prop where
  sum : ∀ {params : List Value} {a : Int64} {rest : List Int64} {i : Int64},
    (params.map Value.number? = (a :: rest).map fun n => some (.int n)) →
      Arithmetic.sum params = .ok (.int i) → i.toInt = total (a :: rest)
  subtract : ∀ {params : List Value} {a : Int64} {rest : List Int64} {i : Int64},
    (params.map Value.number? = (a :: rest).map fun n => some (.int n)) →
      Arithmetic.subtract params = .ok (.int i) → i.toInt = a.toInt - total rest
  multiply : ∀ {params : List Value} {a : Int64} {rest : List Int64} {i : Int64},
    (params.map Value.number? = (a :: rest).map fun n => some (.int n)) →
      Arithmetic.multiply params = .ok (.int i) → i.toInt = product (a :: rest)
  /-- Nothing is divided by zero. -/
  divide : ∀ {params : List Value} {a : Int64} {rest : List Int64} {i : Int64},
    (params.map Value.number? = (a :: rest).map fun n => some (.int n)) →
      Arithmetic.divide params = .ok (.int i) →
        0 ∉ a :: rest ∧ i.toInt = a.toInt.tdiv (product rest)
  /-- The position behind the characters that are cut out of a text. -/
  stop : ∀ {first length stop : Nat},
    Strings.stop? first length = .ok (some stop) → stop = first + length
  /-- The position of the last element of an array. -/
  last : ∀ {items : List Value} {i : Nat}, Arrays.lastIndex items = .ok i → i + 1 = items.length

theorem exactIntegers : ExactIntegers where
  sum h hr := (Arithmetic.givesInt_sum h).of_ok hr |>.2
  subtract h hr := (Arithmetic.givesInt_subtract h).of_ok hr |>.2
  multiply h hr := (Arithmetic.givesInt_multiply h).of_ok hr |>.2
  divide {params a rest i} h hr := by
    by_cases hfits : Fits (a.toInt * a.toInt)
    · exact (Arithmetic.givesInt_divide h hfits).of_ok hr
    · have hover := Arithmetic.divide_overflow h hfits
      rw [hr] at hover
      cases hover
  stop h := (Strings.stop?_eq_some_iff.mp h).1
  last h := (Arrays.lastIndex_eq_ok_iff.mp h).1

namespace Registry

/-- **No call of a built-in operation breaks off.** The call of a registered name refuses a number
of parameters that the arity does not accept; on any other its function gives a value or reports an
error, whatever the parameters are, and so does the call. Neither has to stand for a breach. What
the functions compute with integers is exact, and nothing is divided by zero. -/
theorem call_builtin_unbroken :
    (∀ name, builtin.contains name = true → ∃ b ∈ builtins, b.name = name ∧ ∀ params,
      if b.arity.accepts params.length = true then
        ∃ r, b.run params = r.mapError Halt.error ∧ builtin.call name params = r ∧
          ∀ e, r = .error e → e.isReported = true
      else builtin.call name params = .error (.arity name b.arity params.length)) ∧
    ExactIntegers := by
  refine ⟨fun name hname => ?_, exactIntegers⟩
  obtain ⟨op, hop⟩ := Option.isSome_iff_exists.mp hname
  obtain ⟨b, hb, rfl, rfl⟩ := exists_builtin hop
  refine ⟨b, hb, rfl, fun params => ?_⟩
  have hcall : builtin.call b.name params = b.operation.call params := by
    rw [call, get?, hop]
  rw [hcall, call_operation]
  split
  · rename_i haccepts
    have hproper := proper_builtins b hb params (Arity.least_le_of_accepts haccepts)
    refine ⟨_, hproper.unbroken.eq_mapError, rfl, fun e he => ?_⟩
    cases hrun : b.run params with
    | ok v =>
      rw [hrun] at he
      cases he
    | error halt =>
      obtain ⟨e', rfl, hreported⟩ := hproper halt hrun
      rw [hrun] at he
      cases he
      exact hreported
  · rfl

/-- A position that a text spells, the greatest that 64 bits hold, is compared with the length
before an element is put in there. -/
theorem call_builtin_unbroken_of_text :
    builtin.contains "insert" = true ∧ ∃ b ∈ builtins, b.name = "insert" ∧
      b.run [.array [], .null, .string "9223372036854775807"] = .error (.error .outOfBounds) := by
  have hname : builtin.contains "insert" = true := by decide
  have hcall : builtin.call "insert" [.array [], .null, .string "9223372036854775807"] =
      .error .outOfBounds := by cbv
  obtain ⟨b, hb, hb', hparams⟩ := call_builtin_unbroken.1 "insert" hname
  refine ⟨hname, b, hb, hb', ?_⟩
  have hends := hparams [.array [], .null, .string "9223372036854775807"]
  rw [hcall] at hends
  split at hends
  · obtain ⟨r, hrun, rfl, -⟩ := hends
    exact hrun
  · cases hends

end Registry

end DataBinding
