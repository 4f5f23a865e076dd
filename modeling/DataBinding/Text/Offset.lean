/-!
# Places in a text

While a text is read, a place in it is given by the text left there. Once reading is over it is
given by its offset: the number of bytes before it in UTF-8.

* `byteLength_toList`: the length of a text's characters is its length in bytes.
* `offset_append`: a place's offset is the length of what stands before it.
-/

namespace DataBinding.Text

/-- The number of bytes of a text in UTF-8. -/
def byteLength : List Char → Nat
  | [] => 0
  | c :: cs => c.utf8Size + byteLength cs

/-- The offset of the place in `text` where `rest` is left. -/
def offset (text rest : List Char) : Nat :=
  byteLength text - byteLength rest

theorem byteLength_append (cs ds : List Char) :
    byteLength (cs ++ ds) = byteLength cs + byteLength ds := by
  induction cs with
  | nil => exact (Nat.zero_add _).symm
  | cons c cs ih => rw [List.cons_append, byteLength, byteLength, ih, Nat.add_assoc]

theorem byteLength_ofList (cs : List Char) : byteLength cs = (String.ofList cs).utf8ByteSize := by
  induction cs with
  | nil => rfl
  | cons c cs ih =>
    have h : String.ofList (c :: cs) = String.singleton c ++ String.ofList cs := by
      rw [String.singleton_eq_ofList, ← String.ofList_append]
      rfl
    rw [byteLength, ih, h, String.utf8ByteSize_append, String.utf8ByteSize_singleton]

/-- The length of a text's characters is its length in bytes. -/
theorem byteLength_toList (s : String) : byteLength s.toList = s.utf8ByteSize := by
  rw [byteLength_ofList, String.ofList_toList]

/-- A place's offset is the length of what stands before it. -/
theorem offset_append (before rest : List Char) :
    offset (before ++ rest) rest = byteLength before := by
  rw [offset, byteLength_append, Nat.add_sub_cancel]

end DataBinding.Text
