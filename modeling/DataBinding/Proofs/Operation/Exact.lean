import DataBinding.Proofs.Operation.Unbroken

/-!
# Arithmetic on integers

On parameters that all count as integers the arithmetic operations are exact: they give the integer
that is meant, or report that 64 bits do not hold one on the way to it. A division gives the
quotient by the product of its divisors, however large that is, and reports nothing but a divisor
that is zero.

* `Fits`: 64 bits hold an integer.
* `foldlM_exact`, `foldlM_exact_none`: exact operations from left to right.
* `foldlM_div`, `foldlM_div_zero`: divisions from left to right.
* `GivesInt`: an integer under a condition, and else an error.
* `combine_eq`: the function of an operation folds its parameters.
* `Registry.call_builtin_exact`: what the arithmetic operations give for integers.
-/

namespace DataBinding

/-- 64 bits hold the integer. -/
def Fits (n : Int) : Prop :=
  Int64.minValue.toInt ≤ n ∧ n ≤ Int64.maxValue.toInt

instance (n : Int) : Decidable (Fits n) :=
  inferInstanceAs (Decidable (_ ∧ _))

theorem fits_toInt (i : Int64) : Fits i.toInt :=
  ⟨i.minValue_le_toInt, i.toInt_le⟩

theorem fits_iff_exists {n : Int} : Fits n ↔ ∃ i : Int64, i.toInt = n := by
  constructor
  · intro h
    exact ⟨Int64.ofInt n, Int64.toInt_ofInt_of_le h.1 (Int.lt_add_one_of_le h.2)⟩
  · rintro ⟨i, rfl⟩
    exact fits_toInt i

/-! ## Quotients -/

/-- Dividing toward zero twice is dividing by the product. -/
theorem tdiv_tdiv (a b c : Int) : (a.tdiv b).tdiv c = a.tdiv (b * c) := by
  have hnat (k m n : Nat) : ((k : Int).tdiv m).tdiv n = (k : Int).tdiv (m * n) := by
    rw [← Int.ofNat_tdiv, ← Int.ofNat_tdiv, ← Int.natCast_mul, ← Int.ofNat_tdiv,
      Nat.div_div_eq_div_mul]
  obtain ⟨k, rfl | rfl⟩ := a.eq_nat_or_neg <;> obtain ⟨m, rfl | rfl⟩ := b.eq_nat_or_neg <;>
    obtain ⟨n, rfl | rfl⟩ := c.eq_nat_or_neg <;>
    simp only [Int.neg_tdiv, Int.tdiv_neg, neg_mul, mul_neg, neg_neg, hnat]

theorem mul_self_tdiv {a : Int} (ha : a ≠ 0) (b : Int) : (a * a).tdiv (a * b) = a.tdiv b := by
  rw [← tdiv_tdiv, Int.mul_tdiv_cancel a ha]

/-- The magnitude of a quotient is not above that of the dividend, and the least integer is the only
one that has no negative. -/
theorem fits_tdiv {a : Int64} (ha : a ≠ Int64.minValue) (b : Int) :
    Fits (a.toInt.tdiv b) ∧ a.toInt.tdiv b ≠ Int64.minValue.toInt := by
  have hle := Int.natAbs_tdiv_le_natAbs a.toInt b
  have hne : a.toInt ≠ Int64.minValue.toInt := fun h => ha (Int64.toInt_inj.mp h)
  have hfits := fits_toInt a
  unfold Fits at *
  simp only [Int64.toInt_minValue, Int64.toInt_maxValue] at *
  omega

/-! ## Operations from left to right -/

namespace Number

variable {op : Number → Number → Option Number} {f : Int → Int → Int} {a b : Int64}

theorem Exact.eq_some (h : Exact op f) (hfits : Fits (f a.toInt b.toInt)) :
    ∃ c : Int64, c.toInt = f a.toInt b.toInt ∧ op (.int a) (.int b) = some (.int c) := by
  obtain ⟨c, hc⟩ := fits_iff_exists.mp hfits
  exact ⟨c, hc, (h a b (.int c)).mpr ⟨c, rfl, hc⟩⟩

theorem Exact.eq_none (h : Exact op f) (hfits : ¬ Fits (f a.toInt b.toInt)) :
    op (.int a) (.int b) = none := by
  cases hr : op (.int a) (.int b) with
  | none => rfl
  | some r =>
    obtain ⟨c, -, hc⟩ := (h a b r).mp hr
    exact absurd (fits_iff_exists.mpr ⟨c, hc⟩) hfits

/-- The result of exact integers, from left to right. -/
def running (f : Int → Int → Int) (start : Int) (ns : List Int64) : Int :=
  ns.foldl (fun x n => f x n.toInt) start

/-- Every result on the way fits, from the start on. -/
def AllFit (f : Int → Int → Int) (start : Int) (ns : List Int64) : Prop :=
  ∀ p, p <+: ns → Fits (running f start p)

theorem allFit_cons {start : Int} {n : Int64} {ns : List Int64} :
    AllFit f start (n :: ns) ↔ Fits start ∧ AllFit f (f start n.toInt) ns := by
  unfold AllFit
  simp only [List.prefix_cons_iff, forall_eq_or_imp]
  refine and_congr_right fun _ => ⟨fun h p hp => h _ ⟨p, rfl, hp⟩, ?_⟩
  rintro h _ ⟨p, rfl, hp⟩
  exact h p hp

/-- Exact operations give what the integers give, if every result on the way fits. -/
theorem foldlM_exact (h : Exact op f) {start : Int64} {ns : List Int64}
    (hfit : AllFit f start.toInt ns) : ∃ c : Int64, c.toInt = running f start.toInt ns ∧
      (ns.map Number.int).foldlM op (.int start) = some (.int c) := by
  induction ns generalizing start with
  | nil => exact ⟨start, rfl, rfl⟩
  | cons n ns ih =>
    have htail := (allFit_cons.mp hfit).2
    obtain ⟨c, hc, hop⟩ := h.eq_some (htail [] List.nil_prefix)
    have hfit' : AllFit f c.toInt ns := by rwa [hc]
    obtain ⟨d, hd, hfold⟩ := ih hfit'
    refine ⟨d, by rw [hd, hc]; rfl, ?_⟩
    rw [List.map_cons, List.foldlM_cons, hop]
    exact hfold

/-- And nothing, if one of them does not. -/
theorem foldlM_exact_none (h : Exact op f) {start : Int64} {ns : List Int64}
    (hfit : ¬ AllFit f start.toInt ns) : (ns.map Number.int).foldlM op (.int start) = none := by
  induction ns generalizing start with
  | nil =>
    refine absurd (fun p hp => ?_) hfit
    rw [List.prefix_nil.mp hp]
    exact fits_toInt start
  | cons n ns ih =>
    rw [List.map_cons, List.foldlM_cons]
    by_cases hn : Fits (f start.toInt n.toInt)
    · obtain ⟨c, hc, hop⟩ := h.eq_some hn
      rw [hop]
      refine ih fun htail : AllFit f c.toInt ns => hfit (allFit_cons.mpr ⟨fits_toInt start, ?_⟩)
      rwa [hc] at htail
    · rw [h.eq_none hn]
      rfl

end Number

open Number (Exact AllFit running)

/-! ## Sums, products and quotients of many integers -/

namespace Arithmetic

/-- The sum of the integers, of any size. -/
def total (ns : List Int64) : Int :=
  (ns.map Int64.toInt).sum

/-- The product of the integers, of any size. -/
def product (ns : List Int64) : Int :=
  (ns.map Int64.toInt).prod

@[simp] theorem total_cons (n : Int64) (ns : List Int64) : total (n :: ns) = n.toInt + total ns :=
  List.sum_cons

@[simp] theorem product_cons (n : Int64) (ns : List Int64) :
    product (n :: ns) = n.toInt * product ns :=
  List.prod_cons

theorem running_add (start : Int) (ns : List Int64) :
    running (· + ·) start ns = start + total ns := by
  induction ns generalizing start with
  | nil => exact (Int.add_zero start).symm
  | cons n ns ih =>
    rw [total_cons, ← Int.add_assoc]
    exact ih (start + n.toInt)

theorem running_mul (start : Int) (ns : List Int64) :
    running (· * ·) start ns = start * product ns := by
  induction ns generalizing start with
  | nil => exact (Int.mul_one start).symm
  | cons n ns ih =>
    rw [product_cons, ← Int.mul_assoc]
    exact ih (start * n.toInt)

theorem running_sub (start : Int) (ns : List Int64) :
    running (· - ·) start ns = start - total ns := by
  induction ns generalizing start with
  | nil => exact (Int.sub_zero start).symm
  | cons n ns ih =>
    rw [total_cons, ← Int.sub_sub]
    exact ih (start - n.toInt)

/-- Divisions by integers other than zero give the quotient by their product. Where the dividend is
not the least integer, no quotient on the way is. -/
theorem foldlM_div {start : Int64} {ns : List Int64} (hstart : start ≠ Int64.minValue)
    (hns : 0 ∉ ns) : ∃ c : Int64, c.toInt = start.toInt.tdiv (product ns) ∧ c ≠ Int64.minValue ∧
      (ns.map Number.int).foldlM Number.div (.int start) = some (.int c) := by
  induction ns generalizing start with
  | nil => exact ⟨start, (Int.tdiv_one start.toInt).symm, hstart, rfl⟩
  | cons n ns ih =>
    obtain ⟨hn, hns⟩ := not_or.mp (List.mem_cons.not.mp hns)
    obtain ⟨hfits, hmin⟩ := fits_tdiv hstart n.toInt
    obtain ⟨c, hc⟩ := fits_iff_exists.mp hfits
    have hdiv := (Number.div_int_iff start n (.int c)).mpr ⟨Ne.symm hn, c, rfl, hc⟩
    have hcmin : c ≠ Int64.minValue := fun he => hmin (by rw [← hc, he])
    obtain ⟨d, hd, hdmin, hfold⟩ := ih hcmin hns
    refine ⟨d, by rw [hd, hc, tdiv_tdiv, product_cons], hdmin, ?_⟩
    rw [List.map_cons, List.foldlM_cons, hdiv]
    exact hfold

/-- A zero among the divisors is met, whatever stands in front of it. -/
theorem foldlM_div_zero (start : Int64) {ns : List Int64} (hns : 0 ∈ ns) :
    (ns.map Number.int).foldlM Number.div (.int start) = none := by
  induction ns generalizing start with
  | nil => exact absurd hns List.not_mem_nil
  | cons n ns ih =>
    rw [List.map_cons, List.foldlM_cons]
    cases hr : (Number.int start).div (.int n) with
    | none => rfl
    | some r =>
      obtain ⟨hn, c, rfl, -⟩ := (Number.div_int_iff start n r).mp hr
      exact ih c ((List.mem_cons.mp hns).resolve_left (Ne.symm hn))

/-! ## What an operation gives -/

/-- The result is the integer `n` if the condition holds, and the error `e` if it does not. -/
def GivesInt (r : Except OperationError Value) (condition : Prop) (n : Int) (e : OperationError) :
    Prop :=
  (condition → ∃ i : Int64, i.toInt = n ∧ r = .ok (.int i)) ∧ (¬ condition → r = .error e)

/-- An integer that is given is the one that is meant. -/
theorem GivesInt.of_ok {r : Guarded Value} {condition : Prop} {n : Int} {e : OperationError}
    {i : Int64} (h : GivesInt (r.mapError Halt.toError) condition n e) (hr : r = .ok (.int i)) :
    condition ∧ i.toInt = n := by
  subst hr
  by_cases hc : condition
  · obtain ⟨j, hj, hok⟩ := h.1 hc
    obtain rfl := Value.int.inj (Except.ok.inj hok)
    exact ⟨hc, hj⟩
  · cases h.2 hc

section Fold

variable {op : Number → Number → Guarded (Option Number)} {e : OperationError}

/-- Combining is folding the results. -/
theorem combine_eq (hop : Number.Steady op) (n : Number) (operands : List Number) :
    combine op e n operands =
      match operands.foldlM (fun a b => Number.result (op a b)) n with
      | some r => .ok r.toValue
      | none => Guarded.fail e := by
  induction operands generalizing n with
  | nil => rfl
  | cons m operands ih =>
    rw [combine, hop n m, List.foldlM_cons]
    cases Number.result (op n m) with
    | some r => exact ih r
    | none => rfl

theorem givesInt_fold (hop : Number.Steady op) {start : Number} {operands : List Number}
    {condition : Prop} {n : Int}
    (hyes : condition → ∃ i : Int64, i.toInt = n ∧
      operands.foldlM (fun a b => Number.result (op a b)) start = some (.int i))
    (hno : ¬ condition → operands.foldlM (fun a b => Number.result (op a b)) start = none) :
    GivesInt ((fold op e (.ok (some start)) operands).mapError Halt.toError) condition n e := by
  have hfold : fold op e (.ok (some start)) operands = combine op e start operands := rfl
  rw [hfold, combine_eq hop]
  refine ⟨fun h => ?_, fun h => ?_⟩
  · obtain ⟨i, hi, hfold⟩ := hyes h
    refine ⟨i, hi, ?_⟩
    rw [hfold]
    rfl
  · rw [hno h]
    rfl

theorem givesInt_exact (hop : Number.Steady op) {f : Int → Int → Int}
    (h : Exact (fun a b => Number.result (op a b)) f) (start : Int64) (ns : List Int64) :
    GivesInt
      ((fold op e (.ok (some (.int start))) (ns.map Number.int)).mapError Halt.toError)
      (AllFit f start.toInt ns) (running f start.toInt ns) e :=
  givesInt_fold hop (Number.foldlM_exact h) (Number.foldlM_exact_none h)

/-- Without a start nothing is combined. -/
theorem fold_none (op : Number → Number → Guarded (Option Number)) (e : OperationError)
    (operands : List Number) :
    (fold op e (.ok none) operands).mapError Halt.toError = .error .overflow :=
  rfl

end Fold

/-- The product of two integers that has a result or has none. -/
theorem checkedMul_int {a b : Int64} {r : Option Number}
    (h : (Number.int a).mul (.int b) = r) : (Number.int a).checkedMul (.int b) = .ok r := by
  rw [Number.steady_checkedMul (.int a) (.int b), ← h]
  rfl

theorem readAll_of_map {α : Type} {read : Value → Option α} {params : List Value} {as : List α}
    (h : params.map read = as.map some) (i : Nat) : Params.readAll read i params = .ok as := by
  induction params generalizing as i with
  | nil =>
    obtain rfl := List.map_eq_nil_iff.mp h.symm
    rfl
  | cons p params ih =>
    obtain ⟨a, as, rfl⟩ := List.exists_cons_of_ne_nil (l := as) (by rintro rfl; cases h)
    obtain ⟨hp, htail⟩ := List.cons.inj h
    rw [Params.readAll, hp]
    simp only [ih htail]
    rfl

variable {params : List Value} {a : Int64} {rest : List Int64}

theorem reduce_ints (h : params.map Value.number? = (a :: rest).map fun n => some (.int n))
    (go : Number → List Number → Guarded Value) :
    reduce go params = go (.int a) (rest.map Number.int) := by
  have hread : Params.readAll Value.number? 0 params = .ok ((a :: rest).map Number.int) :=
    readAll_of_map (h.trans (List.map_map (l := a :: rest)).symm) 0
  rw [reduce, hread]
  rfl

/-- What the arithmetic operations give for the integers `a` and `rest`. -/
structure ExactOn (call : String → Except OperationError Value) (a : Int64) (rest : List Int64) :
    Prop where
  sum : GivesInt (call "sum") (∀ p, p <+: rest → Fits (total (a :: p))) (total (a :: rest)) .overflow
  multiply : GivesInt (call "multiply") (∀ p, p <+: rest → Fits (product (a :: p)))
    (product (a :: rest)) .overflow
  subtract : GivesInt (call "subtract")
    (Fits (2 * a.toInt) ∧ ∀ p, p <+: rest → Fits (a.toInt - total p)) (a.toInt - total rest) .overflow
  /-- A division begins with the square of its first parameter. -/
  divide_overflow : ¬ Fits (a.toInt * a.toInt) → call "divide" = .error .overflow
  divide : Fits (a.toInt * a.toInt) →
    GivesInt (call "divide") (0 ∉ a :: rest) (a.toInt.tdiv (product rest)) .divisionByZero
  /-- No quotient on the way is the least integer, whose quotient by -1 would not fit. -/
  quotients : ∀ start, (Number.int a).mul (.int a) = some start →
    ∀ p q, p <+: a :: rest → (p.map Number.int).foldlM Number.div start = some (.int q) →
      q ≠ Int64.minValue

theorem givesInt_sum (h : params.map Value.number? = (a :: rest).map fun n => some (.int n)) :
    GivesInt ((sum params).mapError Halt.toError) (∀ p, p <+: rest → Fits (total (a :: p)))
      (total (a :: rest)) .overflow := by
  have hgives := givesInt_exact (e := .overflow) Number.steady_checkedAdd Number.exact_add a rest
  simp only [AllFit, running_add, ← total_cons] at hgives
  rw [sum, reduce_ints h]
  exact hgives

theorem givesInt_multiply (h : params.map Value.number? = (a :: rest).map fun n => some (.int n)) :
    GivesInt ((multiply params).mapError Halt.toError) (∀ p, p <+: rest → Fits (product (a :: p)))
      (product (a :: rest)) .overflow := by
  have hgives := givesInt_exact (e := .overflow) Number.steady_checkedMul Number.exact_mul a rest
  simp only [AllFit, running_mul, ← product_cons] at hgives
  rw [multiply, reduce_ints h]
  exact hgives

/-- The first parameter cancels out, once its double fits. -/
theorem givesInt_subtract (h : params.map Value.number? = (a :: rest).map fun n => some (.int n)) :
    GivesInt ((subtract params).mapError Halt.toError)
      (Fits (2 * a.toInt) ∧ ∀ p, p <+: rest → Fits (a.toInt - total p)) (a.toInt - total rest)
      .overflow := by
  have htwo : a.toInt * (2 : Int64).toInt = 2 * a.toInt := Int.mul_comm ..
  rw [subtract, reduce_ints h, ← List.map_cons]
  by_cases hfits : Fits (2 * a.toInt)
  · obtain ⟨start, hstart, hmul⟩ := Number.exact_mul.eq_some (b := 2) (by rwa [htwo])
    have hgives :=
      givesInt_exact (e := .overflow) Number.steady_checkedSub Number.exact_sub start (a :: rest)
    have hcancel (p : List Int64) : 2 * a.toInt - a.toInt - total p = a.toInt - total p := by
      omega
    rw [hstart, htwo, Number.allFit_cons] at hgives
    simp only [AllFit, running_sub, total_cons, ← Int.sub_sub, hcancel] at hgives
    rw [checkedMul_int hmul]
    exact hgives
  · rw [checkedMul_int (Number.exact_mul.eq_none (by rwa [htwo]))]
    exact ⟨fun hboth => absurd hboth.1 hfits, fun _ => fold_none ..⟩

theorem divide_overflow (h : params.map Value.number? = (a :: rest).map fun n => some (.int n))
    (hfits : ¬ Fits (a.toInt * a.toInt)) :
    (divide params).mapError Halt.toError = .error .overflow := by
  rw [divide, reduce_ints h, checkedMul_int (Number.exact_mul.eq_none hfits)]
  exact fold_none ..

/-- A square is not negative. -/
theorem square_ne_minValue {start : Int64} (h : start.toInt = a.toInt * a.toInt) :
    start ≠ Int64.minValue := by
  rintro rfl
  have hnonneg := mul_self_nonneg a.toInt
  rw [← h] at hnonneg
  exact absurd hnonneg (by decide)

theorem givesInt_divide (h : params.map Value.number? = (a :: rest).map fun n => some (.int n))
    (hfits : Fits (a.toInt * a.toInt)) :
    GivesInt ((divide params).mapError Halt.toError) (0 ∉ a :: rest)
      (a.toInt.tdiv (product rest)) .divisionByZero := by
  obtain ⟨start, hstart, hmul⟩ := Number.exact_mul.eq_some hfits
  rw [divide, reduce_ints h, ← List.map_cons, checkedMul_int hmul]
  refine givesInt_fold Number.steady_checkedDiv (fun hzero => ?_) fun hzero =>
    foldlM_div_zero start (not_not.mp hzero)
  obtain ⟨c, hc, -, hfold⟩ := foldlM_div (square_ne_minValue hstart) hzero
  have ha : a.toInt ≠ 0 := fun ha => hzero (by
    rw [show a = 0 from Int64.toInt_inj.mp ha]
    exact List.mem_cons_self)
  rw [hstart, product_cons, mul_self_tdiv ha] at hc
  exact ⟨c, hc, hfold⟩

theorem quotient_ne_minValue {start : Number} {p : List Int64} {q : Int64}
    (hmul : (Number.int a).mul (.int a) = some start)
    (hfold : (p.map Number.int).foldlM Number.div start = some (.int q)) : q ≠ Int64.minValue := by
  obtain ⟨s, rfl, hs⟩ := (Number.exact_mul a a start).mp hmul
  by_cases hzero : 0 ∈ p
  · cases (foldlM_div_zero s hzero).symm.trans hfold
  · obtain ⟨c, -, hc, hfold'⟩ := foldlM_div (square_ne_minValue hs) hzero
    obtain rfl := Number.int.inj (Option.some.inj (hfold'.symm.trans hfold))
    exact hc

end Arithmetic

namespace Registry

open Arithmetic

variable {params : List Value} {a : Int64} {rest : List Int64}

/-- The call of an arithmetic operation runs its function, if there are parameters. -/
theorem call_arithmetic (hparams : params ≠ []) : ∀ b ∈ Arithmetic.operations,
    builtin.call b.name params = (b.run params).mapError Halt.toError := by
  intro b hb
  have hsome : ∀ b ∈ Arithmetic.operations, b.arity = .range 1 none := by decide
  refine call_of_mem (by simp [builtins, hb]) ?_
  rw [hsome b hb]
  exact decide_eq_true (List.length_pos_iff.mpr hparams)

/-- **Arithmetic on integers is exact.** On parameters that all count as integers, a sum, a product
or a difference is the one of the integers if every one on the way fits 64 bits, and an overflow if
not. A quotient is that by the product of the other parameters, toward zero, unless some parameter
is zero; it overflows only where the square of the first parameter does. -/
theorem call_builtin_exact
    (h : params.map Value.number? = (a :: rest).map fun n => some (.int n)) :
    ExactOn (builtin.call · params) a rest := by
  have hparams : params ≠ [] := by
    rintro rfl
    cases h
  have hcall := call_arithmetic hparams
  obtain ⟨hsum, hsubtract, hmultiply, hdivide⟩ := List.forall_iff_forall_mem.mpr hcall
  constructor
  case sum => exact hsum ▸ givesInt_sum h
  case multiply => exact hmultiply ▸ givesInt_multiply h
  case subtract => exact hsubtract ▸ givesInt_subtract h
  case divide_overflow => exact fun hfits => hdivide.trans (divide_overflow h hfits)
  case divide => exact fun hfits => hdivide ▸ givesInt_divide h hfits
  case quotients => exact fun start hmul p q _ hfold => quotient_ne_minValue hmul hfold

/-- The sum of three parameters overflows on the way to a sum that fits, and a quotient of a text
loses its fraction once, at the end. -/
theorem call_builtin_exact_of_text :
    let most : List Value := [.int Int64.maxValue, .string "1", .int (-1)]
    let seven : List Value := [.string "-7", .int 2, .string "-1"]
    most.map Value.number? = [Int64.maxValue, 1, -1].map (fun n => some (Number.int n)) ∧
      seven.map Value.number? = [-7, 2, -1].map (fun n => some (Number.int n)) ∧
      Fits (total [Int64.maxValue, 1, -1]) ∧ builtin.call "sum" most = .error .overflow ∧
      builtin.call "divide" seven = .ok (.int 3) := by
  intro most seven
  have hmost : most.map Value.number? =
    [Int64.maxValue, 1, -1].map (fun n => some (Number.int n)) := by cbv
  have hseven : seven.map Value.number? = [-7, 2, -1].map (fun n => some (Number.int n)) := by cbv
  have hsum := (call_builtin_exact hmost).sum.2 fun h => absurd (h [1] (by simp)) (by decide)
  obtain ⟨i, hi, hdivide⟩ := ((call_builtin_exact hseven).divide (by decide)).1 (by decide)
  obtain rfl : i = 3 := Int64.toInt_inj.mp (hi.trans (by decide))
  exact ⟨hmost, hseven, by decide, hsum, hdivide⟩

end Registry

end DataBinding
