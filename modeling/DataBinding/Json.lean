import DataBinding.Value

/-!
# Values as JSON

JSON text is written and read by a library. Values only come to it and back from it: each becomes a
piece of JSON data, of which the library makes text, and the data that the library reads becomes a
value. An integer of 64 bits and a double are both numbers to the library; which of the two a number
was is asked of the library again.

* `Json`: JSON data. `JsonNumbers`: numbers, and what is asked of them.
* `Value.toJson`, `Value.ofJson`: values as data, and data as values.
* `JsonLibrary`: what the library does with text.

In the interface: `to_json` and a conversion from the library's data.

Out of scope: the library. What is relied on is stated where it is needed (`JsonLibrary.Strict`).
`Json.library` is the one to run with.
-/

namespace DataBinding

/-- JSON data with numbers of a type. -/
inductive Json (Number : Type) where
  | null
  | bool (b : Bool)
  | number (n : Number)
  | string (s : String)
  | array (items : List (Json Number))
  /-- The fields, in the order in which their keys came. -/
  | object (fields : Entries (Json Number))

/-- The numbers of a library. -/
structure JsonNumbers where
  Number : Type
  ofInt : Int64 → Number
  /-- The number for a double, if there is one. -/
  ofDouble? : Float → Option Number
  /-- The number as an integer, if it is one of 64 bits. -/
  int? : Number → Option Int64
  /-- The number as a double. -/
  double? : Number → Option Float

/-- A library that writes and reads JSON text. -/
structure JsonLibrary extends JsonNumbers where
  /-- A number as it stands in a text. -/
  numeral : Number → String
  /-- The number that the text spells. -/
  number? : String → Option Number
  write : Json Number → String
  /-- The data that the text spells. -/
  read? : String → Option (Json Number)

/-- How deep a library lets arrays and objects be nested in what it reads. -/
def Json.maxDepth : Nat := 127

namespace Value

variable (numbers : JsonNumbers)

mutual

/-- A value as JSON data. A double for which there is no number becomes `null`. -/
def toJson : Value → Json numbers.Number
  | .null => .null
  | .bool b => .bool b
  | .int n => .number (numbers.ofInt n)
  | .double x =>
    match numbers.ofDouble? x with
    | some n => .number n
    | none => .null
  | .string s => .string s
  | .array vs => .array (itemsToJson vs)
  | .object ⟨fs⟩ => .object (.ofList (fieldsToJson fs))

/-- The values as JSON data. -/
def itemsToJson : List Value → List (Json numbers.Number)
  | [] => []
  | v :: vs => toJson v :: itemsToJson vs

/-- The fields as JSON data, under the same keys. -/
def fieldsToJson : List (String × Value) → List (String × Json numbers.Number)
  | [] => []
  | (k, v) :: fs => (k, toJson v) :: fieldsToJson fs

end

mutual

/-- JSON data as a value. A number is an integer if it is one of 64 bits, and else a double. -/
def ofJson : Json numbers.Number → Value
  | .null => .null
  | .bool b => .bool b
  | .number n =>
    match numbers.int? n with
    | some i => .int i
    | none => .double ((numbers.double? n).getD 0.0)
  | .string s => .string s
  | .array js => .array (itemsOfJson js)
  | .object ⟨fs⟩ => .object (.ofList (fieldsOfJson fs))

/-- Pieces of JSON data as values. -/
def itemsOfJson : List (Json numbers.Number) → List Value
  | [] => []
  | j :: js => ofJson j :: itemsOfJson js

/-- The fields as values, under the same keys. -/
def fieldsOfJson : List (String × Json numbers.Number) → List (String × Value)
  | [] => []
  | (k, j) :: fs => (k, ofJson j) :: fieldsOfJson fs

end

end Value

end DataBinding
