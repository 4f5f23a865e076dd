import DataBinding.Proofs.Decimal.Order
import DataBinding.Proofs.Operation.Unbroken
import DataBinding.Proofs.Value.Equality

/-!
# Comparisons

Integers are compared exactly, and any two other numbers as doubles. An integer beyond 2 ^ 53 may
thus equal a double that equals another integer as well, and still nothing is greater than itself by
going round: rounding may join two integers, but never turns them about.

* `Number.order`: the order of two numbers other than NaN.
* `Number.order_trans`: it is transitive upward, for any mix of integers and doubles.
* `Comparison.Consistent`: how the five operations fit together.
* `Registry.call_comparison`: the built-in ones do.
-/

namespace DataBinding

open Double

namespace Number

variable {k m n : Number}

/-- NaN has no order with any number. -/
def isNaN : Number → Bool
  | .int _ => false
  | .double x => x.isNaN

/-- The place of the number as a double. -/
def rank (n : Number) : ℚ :=
  Double.rank n.toFloat

/-- The order of numbers other than NaN. -/
def order : Number → Number → Ordering
  | .int a, .int b => compare a.toInt b.toInt
  | m, n => compare m.rank n.rank

theorem isNaN_toFloat (n : Number) : n.toFloat.isNaN = n.isNaN := by
  cases n with
  | int a => exact isNaN_ofInt a.toInt
  | double x => rfl

/-! ## Comparison of two numbers -/

/-- Two doubles are compared by at most three tests. -/
theorem tests_eq {x y : Float} (hx : x.isNaN = false) (hy : y.isNaN = false) :
    (if x < y then some Ordering.lt else if x == y then some .eq else if y < x then some .gt
      else none) = some (compare (Double.rank x) (Double.rank y)) := by
  simp only [lt_iff_rank hx hy, beq_iff_rank hx hy, lt_iff_rank hy hx]
  rcases lt_trichotomy (Double.rank x) (Double.rank y) with h | h | h
  · rw [if_pos h, compare_lt_iff_lt.mpr h]
  · rw [if_neg h.not_lt, if_pos h, compare_eq_iff_eq.mpr h]
  · rw [if_neg h.not_gt, if_neg h.ne', if_pos h, compare_gt_iff_gt.mpr h]

theorem tests_of_isNaN {x y : Float} (h : x.isNaN = true ∨ y.isNaN = true) :
    (if x < y then some Ordering.lt else if x == y then some .eq else if y < x then some .gt
      else none) = none := by
  simp only [lt_iff_compare, beq_iff_compare, compare_of_isNaN h, compare_of_isNaN h.symm,
    reduceCtorEq, if_false]

theorem compare?_eq (hm : m.isNaN = false) (hn : n.isNaN = false) :
    m.compare? n = some (m.order n) := by
  have htests := tests_eq ((isNaN_toFloat m).trans hm) ((isNaN_toFloat n).trans hn)
  cases m with
  | int a =>
    cases n with
    | int b => rfl
    | double y => exact htests
  | double x => exact htests

theorem compare?_of_isNaN (h : m.isNaN = true ∨ n.isNaN = true) : m.compare? n = none := by
  have htests := tests_of_isNaN (x := m.toFloat) (y := n.toFloat)
    (by rwa [isNaN_toFloat, isNaN_toFloat])
  cases m with
  | int a =>
    cases n with
    | int b => exact absurd h (by simp [isNaN])
    | double y => exact htests
  | double x => exact htests

/-! ## The order of numbers -/

theorem order_self (n : Number) : n.order n = .eq := by
  cases n with
  | int a => exact compare_eq_iff_eq.mpr rfl
  | double x => exact compare_eq_iff_eq.mpr rfl

theorem compare_swap {α : Type} [LinearOrder α] (a b : α) : compare a b = (compare b a).swap := by
  rcases lt_trichotomy a b with h | rfl | h
  · rw [compare_lt_iff_lt.mpr h, compare_gt_iff_gt.mpr h, Ordering.swap]
  · rw [compare_eq_iff_eq.mpr rfl, Ordering.swap]
  · rw [compare_gt_iff_gt.mpr h, compare_lt_iff_lt.mpr h, Ordering.swap]

theorem order_swap (m n : Number) : m.order n = (n.order m).swap := by
  cases m with
  | int a =>
    cases n with
    | int b => exact compare_swap a.toInt b.toInt
    | double y => exact compare_swap (rank (.int a)) (rank (.double y))
  | double x =>
    cases n with
    | int b => exact compare_swap (rank (.double x)) (rank (.int b))
    | double y => exact compare_swap (rank (.double x)) (rank (.double y))

/-- Two integers are ordered before they are rounded, any other numbers after it. -/
theorem order_cases (m n : Number) : (∃ a b, m = .int a ∧ n = .int b) ∨
    m.order n = compare m.rank n.rank := by
  cases m with
  | int a =>
    cases n with
    | int b => exact .inl ⟨a, b, rfl, rfl⟩
    | double y => exact .inr rfl
  | double x => exact .inr rfl

/-- What is greater has no smaller place as a double. -/
theorem rank_le_of_order (h : m.order n = .gt) : n.rank ≤ m.rank := by
  rcases m.order_cases n with ⟨a, b, rfl, rfl⟩ | hrank
  · exact rank_ofInt_mono (compare_gt_iff_gt.mp h).le
  · exact (compare_gt_iff_gt.mp (hrank.symm.trans h)).le

/-- What has a greater place as a double is greater. -/
theorem order_of_rank_lt (h : n.rank < m.rank) : m.order n = .gt := by
  rcases m.order_cases n with ⟨a, b, rfl, rfl⟩ | hrank
  · exact compare_gt_iff_gt.mpr (lt_of_not_ge fun hle => h.not_ge (rank_ofInt_mono hle))
  · exact hrank.trans (compare_gt_iff_gt.mpr h)

/-- **What is greater than something greater is greater**, whichever of the three are integers. -/
theorem order_trans (h : k.order m = .gt) (h' : m.order n = .gt) : k.order n = .gt := by
  have hle := rank_le_of_order h
  have hle' := rank_le_of_order h'
  rcases k.order_cases m with ⟨a, b, rfl, rfl⟩ | hrank
  · rcases (int b).order_cases n with ⟨b, c, hb, rfl⟩ | hrank'
    · cases hb
      exact compare_gt_iff_gt.mpr
        ((compare_gt_iff_gt.mp h').trans (compare_gt_iff_gt.mp h))
    · exact order_of_rank_lt ((compare_gt_iff_gt.mp (hrank'.symm.trans h')).trans_le hle)
  · exact order_of_rank_lt (hle'.trans_lt (compare_gt_iff_gt.mp (hrank.symm.trans h)))

end Number

/-! ## Comparison of two values -/

/-- The value counts as a number other than NaN. -/
def Value.Comparable (v : Value) : Prop :=
  ∃ n, v.number? = some n ∧ n.isNaN = false

namespace Comparison

variable {x y z : Value} {m n : Number}

theorem ordering?_of_number? (hx : x.number? = some m) (hy : y.number? = some n) :
    ordering? [x, y] = m.compare? n := by
  rw [ordering?, hx, hy]

theorem ordering?_of_not_comparable (h : ¬ (x.Comparable ∧ y.Comparable)) :
    ordering? [x, y] = none := by
  cases hx : x.number? with
  | none => rw [ordering?, hx]
  | some m =>
    cases hy : y.number? with
    | none => rw [ordering?, hx, hy]
    | some n =>
      rw [ordering?_of_number? hx hy]
      refine Number.compare?_of_isNaN ?_
      by_contra hnan
      obtain ⟨hm, hn⟩ := not_or.mp hnan
      exact h ⟨⟨m, hx, Bool.eq_false_iff.mpr hm⟩, n, hy, Bool.eq_false_iff.mpr hn⟩

theorem exists_order (hx : x.Comparable) (hy : y.Comparable) :
    ∃ m n, x.number? = some m ∧ y.number? = some n ∧ ordering? [x, y] = some (m.order n) := by
  obtain ⟨m, hx, hm⟩ := hx
  obtain ⟨n, hy, hn⟩ := hy
  exact ⟨m, n, hx, hy, (ordering?_of_number? hx hy).trans (Number.compare?_eq hm hn)⟩

theorem comparable_of_ordering? {o : Ordering} (h : ordering? [x, y] = some o) :
    x.Comparable ∧ y.Comparable := by
  by_contra hnot
  cases (ordering?_of_not_comparable hnot).symm.trans h

theorem ordering?_swap (x y : Value) : ordering? [x, y] = (ordering? [y, x]).map Ordering.swap := by
  by_cases h : x.Comparable ∧ y.Comparable
  · obtain ⟨m, n, hx, hy, hxy⟩ := exists_order h.1 h.2
    obtain ⟨n', m', hy', hx', hyx⟩ := exists_order h.2 h.1
    obtain rfl := Option.some.inj (hx.symm.trans hx')
    obtain rfl := Option.some.inj (hy.symm.trans hy')
    rw [hxy, hyx, Option.map_some, Number.order_swap]
  · rw [ordering?_of_not_comparable h, ordering?_of_not_comparable (mt And.symm h), Option.map_none]

theorem ordering?_self {o : Ordering} (h : ordering? [x, x] = some o) : o = .eq := by
  obtain ⟨hx, -⟩ := comparable_of_ordering? h
  obtain ⟨m, n, hm, hn, horder⟩ := exists_order hx hx
  obtain rfl := Option.some.inj (hm.symm.trans hn)
  rw [Number.order_self] at horder
  exact Option.some.inj (h.symm.trans horder)

theorem ordering?_trans (h : ordering? [x, y] = some .gt) (h' : ordering? [y, z] = some .gt) :
    ordering? [x, z] = some .gt := by
  obtain ⟨hx, hy⟩ := comparable_of_ordering? h
  obtain ⟨-, hz⟩ := comparable_of_ordering? h'
  obtain ⟨k, m, hk, hm, hxy⟩ := exists_order hx hy
  obtain ⟨m', n, hm', hn, hyz⟩ := exists_order hy hz
  obtain ⟨k', n', hk', hn', hxz⟩ := exists_order hx hz
  obtain rfl := Option.some.inj (hm.symm.trans hm')
  obtain rfl := Option.some.inj (hk.symm.trans hk')
  obtain rfl := Option.some.inj (hn.symm.trans hn')
  rw [hxz, Number.order_trans (Option.some.inj (hxy.symm.trans h))
    (Option.some.inj (hyz.symm.trans h'))]

/-- How the operations `gt`, `gte`, `lt`, `lte` and `eq` fit together. -/
structure Consistent (holds : String → Value → Value → Bool) : Prop where
  gt_eq_lt : ∀ x y, holds "gt" x y = holds "lt" y x
  gte_eq_lte : ∀ x y, holds "gte" x y = holds "lte" y x
  gt_irrefl : ∀ x, holds "gt" x x = false
  gt_trans : ∀ x y z, holds "gt" x y = true → holds "gt" y z = true → holds "gt" x z = true
  eq_refl : ∀ x, holds "eq" x x = true
  eq_symm : ∀ x y, holds "eq" x y = holds "eq" y x
  /-- Of two values that count as numbers other than NaN one is smaller or both are equal. -/
  exactly_one : ∀ x y, x.Comparable → y.Comparable →
    [holds "lt" x y, holds "eq" x y, holds "gt" x y].count true = 1
  gte_eq_or : ∀ x y, x.Comparable → y.Comparable →
    holds "gte" x y = (holds "gt" x y || holds "eq" x y)
  lte_eq_or : ∀ x y, x.Comparable → y.Comparable →
    holds "lte" x y = (holds "lt" x y || holds "eq" x y)
  /-- Others are in no order, and equal only as values. -/
  unordered : ∀ x y, ¬ (x.Comparable ∧ y.Comparable) →
    (∀ name ∈ ["gt", "gte", "lt", "lte"], holds name x y = false) ∧
      holds "eq" x y = (x == y)

/-- Whether the built-in operation of a name is true of two values. -/
def holds (name : String) (x y : Value) : Bool :=
  match Registry.builtin.call name [x, y] with
  | .ok (.bool b) => b
  | _ => false

/-- The call of a comparison runs its function. -/
theorem call_pair (x y : Value) : ∀ b ∈ Comparison.operations,
    Registry.builtin.call b.name [x, y] = (b.run [x, y]).mapError Halt.toError := by
  intro b hb
  have hany : ∀ b ∈ Comparison.operations, b.arity = .any := by decide
  refine Registry.call_of_mem (by simp [builtins, hb]) ?_
  rw [hany b hb]
  rfl

theorem holds_of_run {b : Builtin} (hb : b ∈ Comparison.operations) {t : Bool}
    (h : b.run [x, y] = .ok (.bool t)) : holds b.name x y = t := by
  rw [holds, call_pair x y b hb, h]
  rfl

/-- The truth values of the operations, by the order of the two values. Without an order only `eq`
can be true, of equal values. -/
theorem holds_eq (x y : Value) :
    let o := ordering? [x, y]
    holds "gt" x y = o.any (· == .gt) ∧ holds "gte" x y = o.any (· != .lt) ∧
      holds "lt" x y = o.any (· == .lt) ∧ holds "lte" x y = o.any (· != .gt) ∧
      holds "eq" x y = o.elim (x == y) (· == .eq) := by
  intro o
  have heq : Comparison.eq [x, y] = .ok (.bool (o.elim (x == y) (· == .eq))) := by
    change Comparison.eq [x, y] = .ok (.bool ((ordering? [x, y]).elim (x == y) (· == .eq)))
    rw [Comparison.eq]
    cases ordering? [x, y] <;> rfl
  exact ⟨holds_of_run (b := ⟨"gt", .any, gt⟩) (by simp [operations]) rfl,
    holds_of_run (b := ⟨"gte", .any, gte⟩) (by simp [operations]) rfl,
    holds_of_run (b := ⟨"lt", .any, lt⟩) (by simp [operations]) rfl,
    holds_of_run (b := ⟨"lte", .any, lte⟩) (by simp [operations]) rfl,
    holds_of_run (b := ⟨"eq", .any, Comparison.eq⟩) (by simp [operations]) heq⟩

theorem holds_of_ordering? {o : Ordering} (h : ordering? [x, y] = some o) :
    holds "gt" x y = (o == .gt) ∧ holds "gte" x y = (o != .lt) ∧ holds "lt" x y = (o == .lt) ∧
      holds "lte" x y = (o != .gt) ∧ holds "eq" x y = (o == .eq) := by
  have hholds := holds_eq x y
  rw [h] at hholds
  exact hholds

theorem holds_of_none (h : ordering? [x, y] = none) :
    holds "gt" x y = false ∧ holds "gte" x y = false ∧ holds "lt" x y = false ∧
      holds "lte" x y = false ∧ holds "eq" x y = (x == y) := by
  have hholds := holds_eq x y
  rw [h] at hholds
  exact hholds

/-- `gt` is true of the pairs in descending order, and of no others. -/
theorem holds_gt_iff : holds "gt" x y = true ↔ ordering? [x, y] = some .gt := by
  cases h : ordering? [x, y] with
  | none => simp [(holds_of_none h).1]
  | some o => cases o <;> simp [(holds_of_ordering? h).1]

/-- The call of a comparison of two values succeeds, with a truth value. -/
theorem call_eq_holds (x y : Value) : ∀ name ∈ ["gt", "gte", "lt", "lte", "eq"],
    Registry.builtin.call name [x, y] = .ok (.bool (holds name x y)) := by
  have hordered (accept : Ordering → Bool) : ∃ t, ordered accept [x, y] = .ok (.bool t) :=
    ⟨_, rfl⟩
  have heq : ∃ t, Comparison.eq [x, y] = .ok (.bool t) := by
    rw [Comparison.eq]
    cases ordering? [x, y] with
    | none => exact ⟨_, rfl⟩
    | some o => exact ⟨_, rfl⟩
  have hcall {b : Builtin} (hb : b ∈ operations) (h : ∃ t, b.run [x, y] = .ok (.bool t)) :
      Registry.builtin.call b.name [x, y] = .ok (.bool (holds b.name x y)) := by
    obtain ⟨t, h⟩ := h
    rw [holds_of_run hb h, call_pair x y b hb, h]
    rfl
  refine List.forall_iff_forall_mem.mp ⟨?gt, ?gte, ?lt, ?lte, ?eq⟩
  case gt => exact hcall (b := ⟨"gt", .any, gt⟩) (by simp [operations]) (hordered _)
  case gte => exact hcall (b := ⟨"gte", .any, gte⟩) (by simp [operations]) (hordered _)
  case lt => exact hcall (b := ⟨"lt", .any, lt⟩) (by simp [operations]) (hordered _)
  case lte => exact hcall (b := ⟨"lte", .any, lte⟩) (by simp [operations]) (hordered _)
  case eq => exact hcall (b := ⟨"eq", .any, Comparison.eq⟩) (by simp [operations]) heq

theorem holds_swap (x y : Value) : holds "gt" x y = holds "lt" y x ∧
    holds "gte" x y = holds "lte" y x ∧ holds "eq" x y = holds "eq" y x := by
  have hswap := ordering?_swap x y
  cases h : ordering? [y, x] with
  | none =>
    rw [h, Option.map_none] at hswap
    obtain ⟨hgt, hgte, -, -, heq⟩ := holds_of_none hswap
    obtain ⟨-, -, hlt, hlte, heq'⟩ := holds_of_none h
    rw [hgt, hgte, heq, hlt, hlte, heq']
    exact ⟨rfl, rfl, Value.beq_comm ..⟩
  | some o =>
    rw [h, Option.map_some] at hswap
    obtain ⟨hgt, hgte, -, -, heq⟩ := holds_of_ordering? hswap
    obtain ⟨-, -, hlt, hlte, heq'⟩ := holds_of_ordering? h
    rw [hgt, hgte, heq, hlt, hlte, heq']
    cases o <;> exact ⟨rfl, rfl, rfl⟩

theorem holds_self (x : Value) : holds "gt" x x = false ∧ holds "eq" x x = true := by
  cases h : ordering? [x, x] with
  | none =>
    obtain ⟨hgt, -, -, -, heq⟩ := holds_of_none h
    exact ⟨hgt, heq.trans (Value.beq_refl x)⟩
  | some o =>
    obtain rfl := ordering?_self h
    obtain ⟨hgt, -, -, -, heq⟩ := holds_of_ordering? h
    exact ⟨hgt, heq⟩

theorem holds_of_comparable (hx : x.Comparable) (hy : y.Comparable) :
    [holds "lt" x y, holds "eq" x y, holds "gt" x y].count true = 1 ∧
      holds "gte" x y = (holds "gt" x y || holds "eq" x y) ∧
      holds "lte" x y = (holds "lt" x y || holds "eq" x y) := by
  obtain ⟨m, n, -, -, horder⟩ := exists_order hx hy
  obtain ⟨hgt, hgte, hlt, hlte, heq⟩ := holds_of_ordering? horder
  rw [hgt, hgte, hlt, hlte, heq]
  cases m.order n <;> exact ⟨rfl, rfl, rfl⟩

theorem consistent_holds : Consistent holds where
  gt_eq_lt x y := (holds_swap x y).1
  gte_eq_lte x y := (holds_swap x y).2.1
  gt_irrefl x := (holds_self x).1
  gt_trans _ _ _ h h' := holds_gt_iff.mpr (ordering?_trans (holds_gt_iff.mp h) (holds_gt_iff.mp h'))
  eq_refl x := (holds_self x).2
  eq_symm x y := (holds_swap x y).2.2
  exactly_one _ _ hx hy := (holds_of_comparable hx hy).1
  gte_eq_or _ _ hx hy := (holds_of_comparable hx hy).2.1
  lte_eq_or _ _ hx hy := (holds_of_comparable hx hy).2.2
  unordered _ _ h := by
    obtain ⟨hgt, hgte, hlt, hlte, heq⟩ := holds_of_none (ordering?_of_not_comparable h)
    exact ⟨List.forall_iff_forall_mem.mp ⟨hgt, hgte, hlt, hlte⟩, heq⟩

end Comparison

/-- **The built-in comparisons agree with each other** on all values: a call with two of them always
has a truth value, and the five operations fit together. -/
theorem Registry.call_comparison :
    (∀ name ∈ ["gt", "gte", "lt", "lte", "eq"], ∀ x y,
      builtin.call name [x, y] = .ok (.bool (Comparison.holds name x y))) ∧
      Comparison.Consistent Comparison.holds :=
  ⟨fun name hname x y => Comparison.call_eq_holds x y name hname, Comparison.consistent_holds⟩

/-- An integer equals the double it is rounded to, and so does the integer below it; of an integer,
a double and a text in descending order the first is greater than the last; and NaN equals itself,
but is in no order with itself. -/
theorem Registry.call_comparison_past_rounding :
    let odd : Value := .int 9007199254740993
    let rounded : Value := .double 9007199254740992.0
    let even : Value := .int 9007199254740992
    let below : Value := .double 9007199254740991.0
    let text : Value := .string "9007199254740990"
    let nan : Value := .double (0.0 / 0.0)
    builtin.call "eq" [odd, rounded] = .ok (.bool true) ∧
      builtin.call "eq" [rounded, even] = .ok (.bool true) ∧
      builtin.call "gt" [odd, even] = .ok (.bool true) ∧
      builtin.call "gt" [odd, below] = .ok (.bool true) ∧
      builtin.call "gt" [below, text] = .ok (.bool true) ∧
      builtin.call "gt" [odd, text] = .ok (.bool true) ∧
      builtin.call "eq" [nan, nan] = .ok (.bool true) ∧
      builtin.call "gte" [nan, nan] = .ok (.bool false) := by
  intro odd rounded even below text nan
  obtain ⟨hcall, hholds⟩ := call_comparison
  have hjoined : Comparison.holds "eq" odd rounded = true ∧
      Comparison.holds "eq" rounded even = true ∧ Comparison.holds "gt" odd even = true := by
    decide
  have hdescends : Comparison.holds "gt" odd below = true ∧
      Comparison.holds "gt" below text = true := by
    decide
  have hnan : ¬ (nan.Comparable ∧ nan.Comparable) := by
    rintro ⟨⟨n, hn, hnot⟩, -⟩
    obtain rfl := Option.some.inj hn
    exact absurd hnot (by decide)
  have hgt := hholds.gt_trans odd below text hdescends.1 hdescends.2
  have hgte := (hholds.unordered nan nan hnan).1 "gte" (by simp)
  refine ⟨?_, ?_, ?_, ?_, ?_, ?_, ?_, ?_⟩
  · rw [hcall "eq" (by simp), hjoined.1]
  · rw [hcall "eq" (by simp), hjoined.2.1]
  · rw [hcall "gt" (by simp), hjoined.2.2]
  · rw [hcall "gt" (by simp), hdescends.1]
  · rw [hcall "gt" (by simp), hdescends.2]
  · rw [hcall "gt" (by simp), hgt]
  · rw [hcall "eq" (by simp), hholds.eq_refl nan]
  · rw [hcall "gte" (by simp), hgte]

end DataBinding
