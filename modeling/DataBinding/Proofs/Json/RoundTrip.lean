import DataBinding.Expr.Reader
import DataBinding.Proofs.Entries
import DataBinding.Proofs.Json.Grammar

/-!
# Values read back from their JSON text

A value becomes JSON data, the data text, the text data again and that a value. Of the text only the
library knows, so this holds for every library that is strict: it writes and reads the grammar of
JSON, it tells integers from doubles by a fraction or an exponent in the text, and it reads data in
which arrays and objects are nested up to its limit. Whether it reads a double back from the digits
that it wrote is a matter of each double (`JsonLibrary.Rereads`).

The text that is written for the data spells, as the library reads numbers, other data: that with
every number replaced by what its numeral is read as. This data is the one that is read.

* `JsonLibrary.Strict`: what is relied on.
* `JsonLibrary.Strict.spelled_toJson`: the text of a value spells what is read.
* `Value.ofJson_toJson`: data with numbers that keep their kind becomes the value that it was.
* `Value.ofJson_read?_write`: values read back.

Out of scope: whether the texts of a library are short, and what it does with other texts than those
of data that is not nested too deep.
-/

namespace DataBinding

/-! ## Values and data, part by part -/

namespace Json

variable {N : Type}

mutual

/-- How deep arrays and objects are nested. -/
def depth : Json N → Nat
  | .array js => itemsDepth js + 1
  | .object ⟨fs⟩ => fieldsDepth fs + 1
  | _ => 0

/-- The depth of the deepest of the elements. -/
def itemsDepth : List (Json N) → Nat
  | [] => 0
  | j :: js => max (depth j) (itemsDepth js)

/-- The depth of the deepest of the fields. -/
def fieldsDepth : List (String × Json N) → Nat
  | [] => 0
  | (_, j) :: fs => max (depth j) (fieldsDepth fs)

end

/-- No object in the data has a key twice. -/
inductive DistinctKeys : Json N → Prop where
  | null : DistinctKeys .null
  | bool (b : Bool) : DistinctKeys (.bool b)
  | number (n : N) : DistinctKeys (.number n)
  | string (s : String) : DistinctKeys (.string s)
  | array {js : List (Json N)} : (∀ j ∈ js, DistinctKeys j) → DistinctKeys (.array js)
  | object {fields : Entries (Json N)} : fields.Distinct →
      (∀ e ∈ fields.toList, DistinctKeys e.2) → DistinctKeys (.object fields)

end Json

namespace Value

mutual

/-- How deep arrays and objects are nested. -/
def depth : Value → Nat
  | .array vs => itemsDepth vs + 1
  | .object ⟨fs⟩ => fieldsDepth fs + 1
  | _ => 0

/-- The depth of the deepest of the values. -/
def itemsDepth : List Value → Nat
  | [] => 0
  | v :: vs => max (depth v) (itemsDepth vs)

/-- The depth of the deepest of the fields. -/
def fieldsDepth : List (String × Value) → Nat
  | [] => 0
  | (_, v) :: fs => max (depth v) (fieldsDepth fs)

end

mutual

/-- The doubles in the value, from first to last. -/
def doubles : Value → List Float
  | .double x => [x]
  | .array vs => itemDoubles vs
  | .object ⟨fs⟩ => fieldDoubles fs
  | _ => []

/-- The doubles in the values. -/
def itemDoubles : List Value → List Float
  | [] => []
  | v :: vs => doubles v ++ itemDoubles vs

/-- The doubles in the fields. -/
def fieldDoubles : List (String × Value) → List Float
  | [] => []
  | (_, v) :: fs => doubles v ++ fieldDoubles fs

end

mutual

/-- The value with another value in the place of every double. -/
def mapDoubles (f : Float → Value) : Value → Value
  | .double x => f x
  | .array vs => .array (mapItems f vs)
  | .object ⟨fs⟩ => .object ⟨mapFields f fs⟩
  | v => v

/-- The values with another value in the place of every double. -/
def mapItems (f : Float → Value) : List Value → List Value
  | [] => []
  | v :: vs => mapDoubles f v :: mapItems f vs

/-- The fields, under the same keys, with another value in the place of every double. -/
def mapFields (f : Float → Value) : List (String × Value) → List (String × Value)
  | [] => []
  | (k, v) :: fs => (k, mapDoubles f v) :: mapFields f fs

end

/-- No object in the value has a key twice. -/
inductive DistinctKeys : Value → Prop where
  | null : DistinctKeys .null
  | bool (b : Bool) : DistinctKeys (.bool b)
  | int (n : Int64) : DistinctKeys (.int n)
  | double (x : Float) : DistinctKeys (.double x)
  | string (s : String) : DistinctKeys (.string s)
  | array {vs : List Value} : (∀ v ∈ vs, DistinctKeys v) → DistinctKeys (.array vs)
  | object {fields : Entries Value} : fields.Distinct →
      (∀ e ∈ fields.toList, DistinctKeys e.2) → DistinctKeys (.object fields)

/-! ### Arrays and objects -/

section Parts

variable {vs : List Value} {fs : List (String × Value)}

theorem mem_doubles_array {v : Value} {x : Float} (hv : v ∈ vs) (hx : x ∈ v.doubles) :
    x ∈ (array vs).doubles := by
  rw [doubles]
  induction vs with
  | nil => cases hv
  | cons w vs ih =>
    rw [itemDoubles, List.mem_append]
    rcases List.mem_cons.mp hv with rfl | hv
    · exact Or.inl hx
    · exact Or.inr (ih hv)

theorem mem_doubles_object {e : String × Value} {x : Float} (he : e ∈ fs)
    (hx : x ∈ e.2.doubles) : x ∈ (object ⟨fs⟩).doubles := by
  rw [doubles]
  induction fs with
  | nil => cases he
  | cons d fs ih =>
    rw [fieldDoubles, List.mem_append]
    rcases List.mem_cons.mp he with rfl | he
    · exact Or.inl hx
    · exact Or.inr (ih he)

theorem mapDoubles_array (f : Float → Value) (vs : List Value) :
    mapDoubles f (array vs) = array (vs.map (mapDoubles f)) := by
  rw [mapDoubles]
  congr 1
  induction vs with
  | nil => rfl
  | cons v vs ih => exact congrArg (_ :: ·) ih

theorem mapDoubles_object (f : Float → Value) (fs : List (String × Value)) :
    mapDoubles f (object ⟨fs⟩) = object ⟨fs.map fun e => (e.1, mapDoubles f e.2)⟩ := by
  rw [mapDoubles]
  congr 2
  induction fs with
  | nil => rfl
  | cons e fs ih => exact congrArg (_ :: ·) ih

variable (numbers : JsonNumbers)

theorem toJson_array (vs : List Value) :
    toJson numbers (array vs) = .array (vs.map (toJson numbers)) := by
  rw [toJson]
  congr 1
  induction vs with
  | nil => rfl
  | cons v vs ih => exact congrArg (_ :: ·) ih

theorem fieldsToJson_eq (fs : List (String × Value)) :
    fieldsToJson numbers fs = fs.map fun e => (e.1, toJson numbers e.2) := by
  induction fs with
  | nil => rfl
  | cons e fs ih => exact congrArg (_ :: ·) ih

/-- Fields with distinct keys are put in as they are. -/
theorem toJson_object (h : (⟨fs⟩ : Entries Value).Distinct) :
    toJson numbers (object ⟨fs⟩) = .object ⟨fs.map fun e => (e.1, toJson numbers e.2)⟩ := by
  rw [toJson, fieldsToJson_eq, Entries.ofList_of_distinct (Entries.distinct_mapPairs h _)]

theorem ofJson_array (js : List (Json numbers.Number)) :
    ofJson numbers (.array js) = array (js.map (ofJson numbers)) := by
  rw [ofJson]
  congr 1
  induction js with
  | nil => rfl
  | cons j js ih => exact congrArg (_ :: ·) ih

theorem fieldsOfJson_eq (fs : List (String × Json numbers.Number)) :
    fieldsOfJson numbers fs = fs.map fun e => (e.1, ofJson numbers e.2) := by
  induction fs with
  | nil => rfl
  | cons e fs ih => exact congrArg (_ :: ·) ih

theorem ofJson_object {fs : List (String × Json numbers.Number)}
    (h : (⟨fs⟩ : Entries (Json numbers.Number)).Distinct) :
    ofJson numbers (.object ⟨fs⟩) = object ⟨fs.map fun e => (e.1, ofJson numbers e.2)⟩ := by
  rw [ofJson, fieldsOfJson_eq, Entries.ofList_of_distinct (Entries.distinct_mapPairs h _)]

/-! ### Values as data -/

/-- The data of a value is nested as deep. -/
theorem depth_toJson {v : Value} (h : v.DistinctKeys) : (v.toJson numbers).depth = v.depth := by
  induction h with
  | double x =>
    rw [toJson]
    cases numbers.ofDouble? x <;> rfl
  | @array vs hvs ih =>
    rw [toJson_array, Json.depth, depth]
    congr 1
    clear hvs
    induction vs with
    | nil => rfl
    | cons v vs ihs =>
      rw [List.map_cons, Json.itemsDepth, itemsDepth, ih v List.mem_cons_self,
        ihs fun w hw => ih w (List.mem_cons_of_mem v hw)]
  | @object fields hkeys hfs ih =>
    obtain ⟨fs⟩ := fields
    rw [toJson_object numbers hkeys, Json.depth, depth]
    congr 1
    clear hkeys hfs
    induction fs with
    | nil => rfl
    | cons e fs ihs =>
      rw [List.map_cons, Json.fieldsDepth, fieldsDepth, ih e List.mem_cons_self,
        ihs fun d hd => ih d (List.mem_cons_of_mem e hd)]
  | _ => rfl

theorem distinctKeys_toJson {v : Value} (h : v.DistinctKeys) :
    (v.toJson numbers).DistinctKeys := by
  induction h with
  | null => exact .null
  | bool b => exact .bool b
  | int n => exact .number _
  | double x =>
    rw [toJson]
    split
    · exact .number _
    · exact .null
  | string s => exact .string s
  | array _ ih =>
    rw [toJson_array]
    refine .array fun j hj => ?_
    obtain ⟨v, hv, rfl⟩ := List.mem_map.mp hj
    exact ih v hv
  | @object fields hkeys _ ih =>
    obtain ⟨fs⟩ := fields
    rw [toJson_object numbers hkeys]
    refine .object (Entries.distinct_mapPairs hkeys _) fun e he => ?_
    obtain ⟨d, hd, rfl⟩ := List.mem_map.mp he
    exact ih d hd

end Parts

end Value

/-! ## Strict libraries -/

/-- What is relied on of a library. -/
structure JsonLibrary.Strict (L : JsonLibrary) : Prop where
  /-- What it writes is JSON text of the data, with their numerals for the numbers. -/
  writes {j : Json L.Number} : j.DistinctKeys →
    Json.Padded (Json.Spelled (fun n cs => cs = (L.numeral n).toList) j) (L.write j).toList
  /-- It reads JSON text of data that is not nested too deep. -/
  reads {j : Json L.Number} {s : String} : j.DistinctKeys → j.depth ≤ Json.maxDepth →
    Json.Padded (Json.Spelled (fun n cs => L.number? (String.ofList cs) = some n) j) s.toList →
      L.read? s = some j
  /-- An integer is the integer that its numeral spells. -/
  integer (n : Int64) : (L.number? (L.numeral (L.ofInt n))).bind L.int? = some n
  /-- Exactly the finite doubles are numbers. -/
  finite (x : Float) : (L.ofDouble? x).isSome = x.isFinite
  /-- The numeral of a double has a fraction or an exponent. -/
  marked {x : Float} {n : L.Number} : L.ofDouble? x = some n →
    (L.numeral n).toList.any isDoubleMark = true
  /-- Such a numeral spells no integer. -/
  apart {s : String} {n : L.Number} : L.number? s = some n → s.toList.any isDoubleMark = true →
    L.int? n = none

namespace JsonLibrary

/-- The numeral of the double spells it. -/
def Rereads (L : JsonLibrary) (x : Float) : Prop :=
  (L.ofDouble? x).bind (fun n => (L.number? (L.numeral n)).bind L.double?) = some x

/-- What the numeral of a number is read as. -/
def reread (L : JsonLibrary) (n : L.Number) : L.Number :=
  (L.number? (L.numeral n)).getD n

/-- The numbers as they are read. -/
abbrev rereads (L : JsonLibrary) : JsonNumbers where
  Number := L.Number
  ofInt n := L.reread (L.ofInt n)
  ofDouble? x := (L.ofDouble? x).map L.reread
  int? := L.int?
  double? := L.double?

variable {L : JsonLibrary}

/-- What is known of the number that a numeral spells is known of the number as it is read. -/
theorem reread_of_bind {α : Type} {n : L.Number} {read : L.Number → Option α} {a : α}
    (h : (L.number? (L.numeral n)).bind read = some a) :
    L.number? (L.numeral n) = some (L.reread n) ∧ read (L.reread n) = some a := by
  obtain ⟨m, hm, hread⟩ := Option.bind_eq_some_iff.mp h
  have hreread : L.reread n = m := by rw [reread, hm, Option.getD_some]
  rw [hreread]
  exact ⟨hm, hread⟩

/-- A double that is a number reads back from its numeral, because it is finite. -/
theorem Strict.reread_double (h : L.Strict) {x : Float} {n : L.Number}
    (hx : L.ofDouble? x = some n) (hdouble : x.isFinite = true → L.Rereads x) :
    L.number? (L.numeral n) = some (L.reread n) ∧ L.double? (L.reread n) = some x := by
  have hfinite : x.isFinite = true := by
    rw [← h.finite, hx, Option.isSome_some]
  have hreread := hdouble hfinite
  rw [Rereads, hx, Option.bind_some] at hreread
  exact reread_of_bind hreread

/-- **The text of a value spells what is read**: the same value, with numbers as they are read. -/
theorem Strict.spelled_toJson (h : L.Strict) {v : Value} (hkeys : v.DistinctKeys)
    (hdoubles : ∀ x ∈ v.doubles, x.isFinite = true → L.Rereads x) {cs : List Char}
    (hcs : Json.Spelled (fun n cs => cs = (L.numeral n).toList) (v.toJson L.toJsonNumbers) cs) :
    Json.Spelled (fun n cs => L.number? (String.ofList cs) = some n) (v.toJson L.rereads) cs := by
  induction hkeys generalizing cs with
  | null => exact hcs
  | bool b => cases b <;> exact hcs
  | int n =>
    rw [Value.toJson, Json.Spelled] at hcs ⊢
    rw [hcs, String.ofList_toList]
    exact (reread_of_bind (h.integer n)).1
  | double x =>
    rw [Value.toJson] at hcs ⊢
    cases hx : L.ofDouble? x with
    | none =>
      rw [hx] at hcs
      simp only [hx, Option.map_none]
      exact hcs
    | some n =>
      rw [hx] at hcs
      simp only [hx, Option.map_some]
      rw [Json.Spelled] at hcs ⊢
      rw [hcs, String.ofList_toList]
      exact (h.reread_double hx (hdoubles x (List.mem_singleton_self x))).1
  | string s => exact hcs
  | @array vs _ ih =>
    rw [Value.toJson_array, Json.Spelled, Json.spelledItems_eq] at hcs ⊢
    refine hcs.mono ?_
    rw [List.map_map, List.map_map, List.forall₂_map_left_iff, List.forall₂_map_right_iff,
      List.forall₂_same]
    exact fun v hv cs hcs => hcs.mono fun cs => ih v hv fun x hx =>
      hdoubles x (Value.mem_doubles_array hv hx)
  | @object fields hkeys _ ih =>
    obtain ⟨fs⟩ := fields
    rw [Value.toJson_object _ hkeys, Json.Spelled, Json.spelledFields_eq] at hcs ⊢
    refine hcs.mono ?_
    rw [List.map_map, List.map_map, List.forall₂_map_left_iff, List.forall₂_map_right_iff,
      List.forall₂_same]
    exact fun e he cs hcs => hcs.mono fun cs => ih e he fun x hx =>
      hdoubles x (Value.mem_doubles_object he hx)

end JsonLibrary

namespace Value

variable {L : JsonLibrary} {v : Value}

/-- **Numbers that are read back keep their kind**, so that the data becomes the value that it was,
but for the doubles that are no numbers. -/
theorem ofJson_toJson (h : L.Strict) (hkeys : v.DistinctKeys)
    (hdoubles : ∀ x ∈ v.doubles, x.isFinite = true → L.Rereads x) :
    ofJson L.toJsonNumbers (v.toJson L.rereads) = v.mapDoubles ofFloat := by
  induction hkeys with
  | null => rfl
  | bool b => rfl
  | int n =>
    have hint := (JsonLibrary.reread_of_bind (h.integer n)).2
    rw [toJson, ofJson, mapDoubles]
    · simp only [hint]
    all_goals simp
  | double x =>
    rw [toJson, mapDoubles, ofFloat, ← h.finite]
    cases hx : L.ofDouble? x with
    | none =>
      simp only [hx, Option.map_none]
      rfl
    | some n =>
      obtain ⟨hnumber, hdouble⟩ := h.reread_double hx (hdoubles x (List.mem_singleton_self x))
      -- its fraction or exponent tells the double from an integer
      have hint := h.apart hnumber (h.marked hx)
      simp only [hx, Option.map_some, Option.isSome_some, if_true]
      rw [ofJson]
      simp only [hint, hdouble, Option.getD_some]
  | string s => rfl
  | @array vs _ ih =>
    rw [toJson_array, ofJson_array, mapDoubles_array, List.map_map]
    exact congrArg array (List.map_congr_left fun v hv =>
      ih v hv fun x hx => hdoubles x (mem_doubles_array hv hx))
  | @object fields hkeys _ ih =>
    obtain ⟨fs⟩ := fields
    rw [toJson_object _ hkeys, ofJson_object _ (Entries.distinct_mapPairs hkeys _),
      mapDoubles_object, List.map_map]
    exact congrArg (fun fs => object ⟨fs⟩) (List.map_congr_left fun e he =>
      congrArg (e.1, ·) (ih e he fun x hx => hdoubles x (mem_doubles_object he hx)))

/-- **A value reads back from its JSON text**, if arrays and objects in it are nested no deeper than
the library reads and its finite doubles read back from their numerals. Nothing else is different
than that every double that is not finite has become `null`. -/
theorem ofJson_read?_write (h : L.Strict) (hkeys : v.DistinctKeys)
    (hdepth : v.depth ≤ Json.maxDepth)
    (hdoubles : ∀ x ∈ v.doubles, x.isFinite = true → L.Rereads x) :
    (L.read? (L.write (v.toJson L.toJsonNumbers))).map (ofJson L.toJsonNumbers) =
      some (v.mapDoubles ofFloat) := by
  have hspelled := (h.writes (distinctKeys_toJson L.toJsonNumbers hkeys)).mono fun cs =>
    h.spelled_toJson hkeys hdoubles
  have hdepth' : (v.toJson L.rereads).depth ≤ Json.maxDepth := by
    rwa [depth_toJson L.rereads hkeys]
  rw [h.reads (distinctKeys_toJson L.rereads hkeys) hdepth' hspelled, Option.map_some]
  exact congrArg some (ofJson_toJson h hkeys hdoubles)

end Value

end DataBinding
