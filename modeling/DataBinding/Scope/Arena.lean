import DataBinding.Scope.NodeId

/-!
# Arenas

An arena keeps things in numbered cells and gives out an identity for each. A cell that was vacated
is used again, the last vacated first. Its generation, the number of times it was vacated as a
32-bit word, is part of the identity, so an identity kept too long leads to nothing.

* `Arena.get?`: what an identity leads to.
* `Arena.alloc`, `Arena.release?`: putting a thing in and taking it out.
* `Arena.occupied_release?`: taking a thing out leaves one cell fewer occupied.
-/

namespace DataBinding

/-- A cell: how often it was vacated, and what is in it now. -/
structure Cell (α : Type) where
  vacated : Nat
  content : Option α

/-- The generation that an identity must have to lead to the content. -/
def Cell.generation {α : Type} (c : Cell α) : UInt32 :=
  UInt32.ofNat c.vacated

/-- Things in numbered cells. -/
structure Arena (α : Type) where
  cells : List (Cell α) := []
  /-- The vacated cells, the last vacated first. -/
  free : List UInt32 := []

namespace Arena

variable {α : Type}

/-- What the identity leads to. -/
def get? (a : Arena α) (id : NodeId) : Option α :=
  match a.cells[id.index.toNat]? with
  | some c => if c.generation = id.generation then c.content else none
  | none => none

/-- Whether the identity leads to something. -/
def contains (a : Arena α) (id : NodeId) : Bool :=
  (a.get? id).isSome

/-- Changes what the identity leads to. -/
def modify (a : Arena α) (id : NodeId) (f : α → α) : Arena α :=
  if a.contains id then
    { a with cells := a.cells.modify id.index.toNat fun c => { c with content := c.content.map f } }
  else a

/-- Changes everything in the arena. -/
def map (a : Arena α) (f : α → α) : Arena α :=
  { a with cells := a.cells.map fun c => { c with content := c.content.map f } }

/-- The number of occupied cells. -/
def occupied (a : Arena α) : Nat :=
  a.cells.countP (·.content.isSome)

/-- Puts a thing in, into the cell vacated last or else into a new one. -/
def alloc (a : Arena α) (x : α) : NodeId × Arena α :=
  match a.free with
  | i :: free =>
    let generation := ((a.cells[i.toNat]?).map Cell.generation).getD 0
    (⟨i, generation⟩,
      { cells := a.cells.modify i.toNat fun c => { c with content := some x }, free })
  | [] => (⟨UInt32.ofNat a.cells.length, 0⟩, { a with cells := a.cells ++ [⟨0, some x⟩] })

/-- Takes out what the identity leads to. -/
def release? (a : Arena α) (id : NodeId) : Option (α × Arena α) :=
  match a.get? id with
  | none => none
  | some x =>
    some (x,
      { cells := a.cells.modify id.index.toNat fun c => ⟨c.vacated + 1, none⟩
        free := id.index :: a.free })

theorem countP_modify_add_one {β : Type} {p : β → Bool} {f : β → β} (hf : ∀ b, p (f b) = false)
    {i : Nat} {l : List β} {b : β} (h : l[i]? = some b) (hb : p b = true) :
    (l.modify i f).countP p + 1 = l.countP p := by
  induction l generalizing i with
  | nil => simp at h
  | cons c l ih =>
    cases i with
    | zero =>
      obtain rfl : c = b := by simpa using h
      simp [hf, hb]
    | succ i =>
      have := ih (i := i) (by simpa using h)
      simp only [List.modify_succ_cons, List.countP_cons]
      omega

/-- Taking a thing out leaves one cell fewer occupied. -/
theorem occupied_release? {a b : Arena α} {id : NodeId} {x : α} (h : a.release? id = some (x, b)) :
    b.occupied + 1 = a.occupied := by
  unfold release? at h
  split at h
  · cases h
  · rename_i y hy
    obtain ⟨_, rfl⟩ := Prod.mk.inj (Option.some.inj h)
    unfold get? at hy
    split at hy
    · rename_i c hc
      split at hy
      · exact countP_modify_add_one (fun _ => rfl) hc (by simp [hy])
      · cases hy
    · cases hy

end Arena

end DataBinding
