import DataBinding.Proofs.Scope.Calls

/-!
# Changing trees that differ in their observers only

What a call does to the nodes and the values of a tree does not depend on its observers. So trees
that differ in their observers only still do when the same is done to both.

* `Alike.node?_cases`: the nodes of such trees.
* `Alike.addNode`, `Alike.modifyNode`, `Alike.write`, `Alike.cut` and the like: the same change on
  both sides.
-/

namespace DataBinding.Scope

namespace Tree

theorem unwatched_modifyNode {f : Node → Node} (hf : ∀ n, (f n).unwatched = f n.unwatched)
    (t : Tree) (x : NodeId) : (t.modifyNode x f).unwatched = t.unwatched.modifyNode x f := by
  simp only [unwatched, modifyNode, Arena.modify_map hf]

theorem unwatched_addNode (t : Tree) (parent : Option NodeId) :
    (t.addNode parent).unwatched = t.unwatched.addNode parent := by
  simp only [unwatched, addNode, Arena.alloc_map]
  rfl

theorem unwatched_write (t : Tree) (T : Target) (f : Value → Value) :
    (t.write T f).unwatched = t.unwatched.write T f := by
  obtain ⟨owner, c⟩ := T
  cases owner with
  | global => rfl
  | node x =>
    refine unwatched_modifyNode (fun n => ?_) t x
    have hs : ∀ s : Slot, Slot.unwatched { s with value := f s.value } =
        { s.unwatched with value := f s.unwatched.value } := fun _ => rfl
    simp only [Node.unwatched, Entries.modify_mapValues hs]

theorem unwatched_addContext (t : Tree) (x : NodeId) (c : String) (value : Value) :
    (t.addContext x c value).unwatched = t.unwatched.addContext x c value := by
  refine unwatched_modifyNode (fun n => ?_) t x
  simp only [Node.unwatched, Entries.mapValues_insert]
  rfl

theorem parent?_unwatched (t : Tree) (x : NodeId) : t.unwatched.parent? x = t.parent? x := by
  rw [parent?, parent?, node?_unwatched]
  cases t.node? x <;> rfl

theorem unwatched_unlink (t : Tree) (x : NodeId) :
    (t.unlink x).unwatched = t.unwatched.unlink x := by
  unfold unlink
  rw [parent?_unwatched]
  cases t.parent? x with
  | none => rfl
  | some p =>
    have hf : ∀ n : Node, Node.unwatched { n with children := n.children.filter (· != x) } =
        { n.unwatched with children := n.unwatched.children.filter (· != x) } := fun _ => rfl
    exact unwatched_modifyNode hf t p

theorem dismantle_unwatched (t : Tree) (ids : List NodeId) :
    dismantle t.unwatched.nodes ids =
      ((dismantle t.nodes ids).1.map Node.unwatched, (dismantle t.nodes ids).2) :=
  dismantle_map t.nodes ids fun _ => ⟨rfl, rfl⟩

theorem removed_unwatched (t : Tree) (x : NodeId) : t.unwatched.removed x = t.removed x := by
  rw [removed, ← unwatched_unlink, dismantle_unwatched]
  rfl

theorem unwatched_cut (t : Tree) (x : NodeId) : (t.cut x).unwatched = t.unwatched.cut x := by
  unfold cut
  rw [← unwatched_unlink, dismantle_unwatched]
  rfl

end Tree

/-- Two results that look the same through `f` are both there or both not. -/
theorem eq_none_or_eq_some_of_map_eq {α β : Type} {f : α → β} {a b : Option α}
    (h : b.map f = a.map f) :
    a = none ∧ b = none ∨ ∃ x y, a = some x ∧ b = some y ∧ f y = f x := by
  cases a with
  | none => exact Or.inl ⟨rfl, Option.map_eq_none_iff.mp h⟩
  | some x =>
    obtain ⟨y, hy, he⟩ := Option.map_eq_some_iff.mp h
    exact Or.inr ⟨x, y, rfl, hy, he⟩

namespace Alike

variable {t u : Tree}

/-- The same change on both sides. -/
theorem congr {f : Tree → Tree} (hf : ∀ t, (f t).unwatched = f t.unwatched) (h : Alike t u) :
    Alike (f t) (f u) := by
  rw [Alike, hf, hf, h.unwatched_eq]

theorem addNode (h : Alike t u) (parent : Option NodeId) :
    Alike (t.addNode parent) (u.addNode parent) :=
  h.congr (fun t => t.unwatched_addNode parent)

theorem modifyNode (h : Alike t u) (x : NodeId) {f : Node → Node}
    (hf : ∀ n, (f n).unwatched = f n.unwatched) : Alike (t.modifyNode x f) (u.modifyNode x f) :=
  h.congr fun t => t.unwatched_modifyNode hf x

theorem nextId (h : Alike t u) : u.nodes.nextId = t.nodes.nextId := by
  rw [← Arena.nextId_map u.nodes Node.unwatched, h.map_nodes, Arena.nextId_map]

theorem addLeaf (h : Alike t u) (p : NodeId) : Alike (t.addLeaf p) (u.addLeaf p) := by
  unfold Tree.addLeaf
  rw [h.nextId]
  exact (h.addNode _).modifyNode p fun _ => rfl

theorem addScope (h : Alike t u) (m : NodeId) (parent : Option NodeId) :
    Alike (t.addScope m parent) (u.addScope m parent) := by
  unfold Tree.addScope
  rw [h.nextId]
  exact (h.addNode _).modifyNode m fun _ => rfl

theorem dropScope (h : Alike t u) (m : NodeId) : Alike (t.dropScope m) (u.dropScope m) :=
  h.modifyNode m fun _ => rfl

theorem write (h : Alike t u) (T : Target) (f : Value → Value) :
    Alike (t.write T f) (u.write T f) :=
  h.congr fun t => t.unwatched_write T f

theorem addContext (h : Alike t u) (x : NodeId) (c : String) (value : Value) :
    Alike (t.addContext x c value) (u.addContext x c value) :=
  h.congr fun t => t.unwatched_addContext x c value

theorem cut (h : Alike t u) (x : NodeId) : Alike (t.cut x) (u.cut x) :=
  h.congr fun t => t.unwatched_cut x

theorem removed (h : Alike t u) (x : NodeId) : u.removed x = t.removed x := by
  rw [← Tree.removed_unwatched, h, Tree.removed_unwatched]

theorem without (h : Alike t u) (x : NodeId) : Alike (t.without x) (u.without x) :=
  (alike_dropWatches (t.cut x) (t.removed x)).symm.trans <|
    (h.cut x).trans (alike_dropWatches (u.cut x) (u.removed x))

/-! ## Reading -/

/-- A node is there on both sides or on neither, and is the same but for its observers. -/
theorem node?_cases (h : Alike t u) (x : NodeId) :
    t.node? x = none ∧ u.node? x = none ∨
      ∃ n m, t.node? x = some n ∧ u.node? x = some m ∧ m.unwatched = n.unwatched :=
  eq_none_or_eq_some_of_map_eq (h.node? x)

theorem slot?_cases (h : Alike t u) (T : Target) :
    t.slot? T = none ∧ u.slot? T = none ∨
      ∃ s r, t.slot? T = some s ∧ u.slot? T = some r ∧ r.value = s.value :=
  eq_none_or_eq_some_of_map_eq (h.slot?_value T)

theorem parent? (h : Alike t u) (x : NodeId) : u.parent? x = t.parent? x := by
  rw [← Tree.parent?_unwatched, h, Tree.parent?_unwatched]

theorem children (h : Alike t u) (x : NodeId) : u.children x = t.children x :=
  h.sameLinks.children x

theorem implicit? (h : Alike t u) {n m : Node} (he : m.unwatched = n.unwatched) :
    u.implicit? m = t.implicit? n := by
  have hi : m.implicit = n.implicit :=
    (congrArg Node.implicit he : m.unwatched.implicit = n.unwatched.implicit)
  rw [Tree.implicit?, Tree.implicit?, hi, funext h.contains]

end Alike

end DataBinding.Scope
