import DataBinding.Proofs.Scope.Family
import DataBinding.Proofs.Scope.Refused

/-!
# A removal takes a subtree

Removing a node takes away the node and what is reached from it through children and implicit
scopes, each node once, and nothing else. The nodes that stay keep their links and their values, but
for the node removed, which leaves the list of its parent. The observers that stay keep what they
found, unless it went away.

* `mem_removed_iff_subtree`: the nodes taken out are those of the subtree.
* `node?_remove`, `watch?_remove`: the nodes and the observers that stay.
* `TakesSubtree`: what a removal takes and what it leaves.
* `Run.takesSubtree_remove`: every removal takes exactly the subtree.
-/

namespace DataBinding.Scope

variable {t : Tree} {n x y m : NodeId}

/-- The nodes reached from a node through children and implicit scopes that are there. -/
def Tree.Subtree (t : Tree) : NodeId → NodeId → Prop :=
  Relation.ReflTransGen fun x y =>
    y ∈ t.children x ∨ scopeOf t.nodes x = some y ∧ t.contains y = true

/-- The contexts of a node with their values, in order. -/
def Node.values (n : Node) : List (String × Value) :=
  n.contexts.toList.map fun e => (e.1, e.2.value)

@[simp] theorem Node.values_unwatched (n : Node) : n.unwatched.values = n.values := by
  simp only [values, unwatched, Entries.mapValues, List.map_map]
  rfl

/-! ## The nodes taken out -/

/-- What is below a node that goes, goes. -/
theorem mem_removed_of_subtree (h : Forest t.nodes) (hn : t.contains n = true)
    (hy : t.Subtree n y) : y ∈ t.removed n := by
  induction hy with
  | refl => exact mem_removed_self hn
  | @tail y z _ hyz hyR =>
    rcases hyz with hchild | ⟨hscope, hlive⟩
    · by_cases hz : z = n
      · rw [hz]
        exact mem_removed_self hn
      · -- a child other than the node itself is still listed once the node is struck off
        have hlisted : z ∈ childrenOf (t.unlink n).nodes y := by
          rw [childrenOf_unlink h]
          exact List.mem_filter.mpr ⟨hchild, bne_iff_ne.mpr hz⟩
        refine mem_dismantle_of_below hyR (Or.inl hlisted) ((contains_unlink t n z).trans ?_)
        exact contains_of_parentOf (h.parent_of_child hchild)
    · exact scope_goes hyR hscope hlive

theorem subtree_of_mem_removed (h : Forest t.nodes) (hy : y ∈ t.removed n) : t.Subtree n y := by
  refine of_mem_dismantle (fun x hx _ => ?_) (fun {x y} hy hxy hlive => hy.tail ?_) hy
  · rw [List.mem_singleton.mp hx]
    exact .refl
  · rcases hxy with hchild | hscope
    · rw [childrenOf_unlink h] at hchild
      exact Or.inl (List.mem_of_mem_filter hchild)
    · rw [scopeOf_unlink] at hscope
      exact Or.inr ⟨hscope, (contains_unlink t n x).symm.trans hlive⟩

/-- **The nodes taken out are those of the subtree.** -/
theorem mem_removed_iff_subtree (h : Forest t.nodes) (hn : t.contains n = true) :
    y ∈ t.removed n ↔ t.Subtree n y :=
  ⟨subtree_of_mem_removed h, mem_removed_of_subtree h hn⟩

/-! ## The cells -/

theorem free_unlink (t : Tree) (x : NodeId) : (t.unlink x).nodes.free = t.nodes.free := by
  obtain ⟨-, h⟩ | ⟨p, -, h⟩ := t.unlink_cases x <;> rw [h]
  exact Arena.free_modify ..

theorem vacations_unlink (t : Tree) (x : NodeId) (i : UInt32) :
    (t.unlink x).nodes.vacations i = t.nodes.vacations i := by
  obtain ⟨-, h⟩ | ⟨p, -, h⟩ := t.unlink_cases x <;> rw [h]
  exact Arena.vacations_of_cells (Arena.vacated_modify ..) i

theorem free_remove (hx : t.contains x = true) :
    (t.remove x).tree.nodes.free =
      ((t.removed x).map NodeId.index).reverse ++ t.nodes.free := by
  rw [(alike_remove hx).free, ← free_unlink t x]
  exact (releases_dismantle ..).free

theorem vacations_remove (hx : t.contains x = true) (i : UInt32) :
    (t.remove x).tree.nodes.vacations i =
      t.nodes.vacations i + ((t.removed x).map NodeId.index).count i := by
  rw [Arena.vacations_of_cells (alike_remove hx).vacated, ← vacations_unlink t x]
  exact (releases_dismantle ..).vacations _

/-! ## The nodes that stay -/

/-- A node that stays is as it was once the node removed is struck off, but for observers. -/
theorem node?_remove (hx : t.contains x = true) (hm : m ∉ t.removed x) :
    ((t.remove x).tree.node? m).map Node.unwatched =
      ((t.unlink x).node? m).map Node.unwatched := by
  rw [(alike_remove hx).node?]
  exact congrArg (Option.map Node.unwatched) ((get?_dismantle ..).trans (if_neg hm))

theorem values_unlink (t : Tree) (x m : NodeId) :
    ((t.unlink x).node? m).map Node.values = (t.node? m).map Node.values := by
  obtain ⟨-, h⟩ | ⟨p, -, h⟩ := t.unlink_cases x <;> rw [h]
  unfold Tree.modifyNode
  rw [Tree.node?_eq, Arena.get?_modify]
  split
  · rename_i hmp
    rw [hmp, Option.map_map]
    rfl
  · rfl

theorem values_remove (hx : t.contains x = true) (hm : m ∉ t.removed x) :
    ((t.remove x).tree.node? m).map Node.values = (t.node? m).map Node.values := by
  have h := congrArg (Option.map Node.values) (node?_remove hx hm)
  simp only [Option.map_map, Function.comp_def, Node.values_unwatched] at h
  exact h.trans (values_unlink t x m)

/-! ## The observers that stay -/

/-- The observers that look from a node that goes are dropped, and those that found a context there
look again. -/
theorem watch?_remove (h : Coherent t) (hx : t.contains x = true) (id : ObserverId) :
    (t.remove x).tree.watch? id =
      ((t.watch? id).filter (·.subscriber ∉ t.removed x)).map fun w =>
        if Tree.targetsAny (t.removed x) w then (t.without x).refresh w else w := by
  have hwatches : (t.remove x).tree.watches =
      (t.watches.filter (·.subscriber ∉ t.removed x)).map fun w =>
        if Tree.targetsAny (t.removed x) w then (t.without x).refresh w else w := by
    rw [Tree.remove_of_contains hx, ← t.watches_without x]
    exact (h.indexed_without x).watches_rebindWhere _
  have hid : ∀ w, (if Tree.targetsAny (t.removed x) w then (t.without x).refresh w else w).id =
      w.id := fun w => by split <;> rfl
  refine Option.ext fun w => ?_
  rw [(h.remove x).indexed.watch?_eq_some_iff, hwatches]
  simp only [List.mem_map, List.mem_filter, Option.map_eq_some_iff, Option.filter_eq_some_iff,
    h.indexed.watch?_eq_some_iff]
  constructor
  · rintro ⟨⟨v, ⟨hv, hstays⟩, rfl⟩, rfl⟩
    exact ⟨v, ⟨⟨hv, (hid v).symm⟩, hstays⟩, rfl⟩
  · rintro ⟨v, ⟨⟨hv, rfl⟩, hstays⟩, rfl⟩
    exact ⟨⟨v, ⟨hv, hstays⟩, rfl⟩, hid v⟩

/-! ## What a removal takes and leaves -/

/-- From `t` to `u` the node `n` goes and all below it, and the rest of the tree stays as it was. -/
structure TakesSubtree (t : Tree) (n : NodeId) (u : Tree) : Prop where
  /-- The nodes that are gone are those of the subtree. -/
  gone : ∀ y, t.contains y = true ∧ ¬ u.contains y = true ↔ t.Subtree n y
  /-- No node is new. -/
  kept : ∀ y, u.contains y = true → t.contains y = true
  /-- Each of them is released once: its cell is vacated once more and free now, no other is. -/
  released : ∃ nodes : List NodeId, (∀ y, y ∈ nodes ↔ t.Subtree n y) ∧
    (nodes.map NodeId.index).Nodup ∧
    u.nodes.free = (nodes.map NodeId.index).reverse ++ t.nodes.free ∧
    ∀ i, u.nodes.vacations i = t.nodes.vacations i + (nodes.map NodeId.index).count i
  parent : ∀ m, u.contains m = true → u.parent? m = t.parent? m
  /-- The implicit scope that a node names is the one it named. -/
  scope : ∀ m, u.contains m = true → scopeOf u.nodes m = scopeOf t.nodes m
  values : ∀ m, u.contains m = true →
    (u.node? m).map Node.values = (t.node? m).map Node.values
  /-- The node leaves the children of its parent, and no other list changes. -/
  children : ∀ m, u.contains m = true →
    u.children m =
      if t.parent? n = some m then (t.children m).filter (· != n) else t.children m
  global : u.global.value = t.global.value
  /-- The observers that stay are those that look from a node that stays. -/
  observers : ∀ id w, t.watch? id = some w →
    ((u.watch? id).isSome = true ↔ ¬ t.Subtree n w.subscriber)
  /-- An observer that stays and found nothing at a node that goes keeps what it found. -/
  targets : ∀ id, (u.watch? id).isSome = true →
    (∀ T ∈ t.targets id, ∀ y, T.owner = .node y → ¬ t.Subtree n y) →
      u.targets id = t.targets id

/-- A removal takes the subtree of a node out of a forest. -/
theorem takesSubtree_of_forest (h : Forest t.nodes) (hc : Coherent t) (hn : t.contains n = true) :
    TakesSubtree t n (t.remove n).tree := by
  have hmem : ∀ {y}, y ∈ t.removed n ↔ t.Subtree n y := mem_removed_iff_subtree h hn
  have hstays : ∀ {m}, (t.remove n).tree.contains m = true → m ∉ t.removed n :=
    fun hm => ((contains_remove hn).mp hm).1
  constructor
  case gone => exact fun y => (mem_removed_iff hn).symm.trans hmem
  case kept => exact fun y hy => ((contains_remove hn).mp hy).2
  case released =>
    exact ⟨t.removed n, fun _ => hmem, nodup_index_dismantle .., free_remove hn,
      vacations_remove hn⟩
  case parent => exact fun m hm => parentOf_remove hn (hstays hm)
  case scope =>
    exact fun m hm => Option.ext fun i => (scopeOf_remove hn).trans (and_iff_right (hstays hm))
  case values => exact fun m hm => values_remove hn (hstays hm)
  case children =>
    intro m hm
    have hlist : (t.remove n).tree.children m = (t.children m).filter (· != n) :=
      (childrenOf_remove_eq hn (hstays hm)).trans (childrenOf_unlink h n m)
    rw [hlist]
    split
    · rfl
    · rename_i hne
      refine List.filter_eq_self.mpr fun y hy => bne_iff_ne.mpr ?_
      rintro rfl
      exact hne (h.parent_of_child hy)
  case global => exact global_remove hn
  case observers =>
    intro id w hw
    rw [watch?_remove hc hn, hw, Option.isSome_map, ← hmem]
    by_cases hs : w.subscriber ∈ t.removed n
    · simp [hs]
    · simp [hs]
  case targets =>
    intro id hlive hfar
    rw [watch?_remove hc hn, Option.isSome_map] at hlive
    obtain ⟨w, hw⟩ := Option.isSome_iff_exists.mp hlive
    obtain ⟨hw', -⟩ := Option.filter_eq_some_iff.mp hw
    have hnone : ¬ Tree.targetsAny (t.removed n) w = true := fun ha => by
      obtain ⟨T, hT, y, hy, hTy⟩ := Tree.targetsAny_iff.mp ha
      refine hfar T ?_ y hTy (hmem.mp hy)
      rw [Tree.targets, hw']
      exact hT
    rw [Tree.targets, watch?_remove hc hn, hw, Option.map_some, if_neg hnone, Tree.targets, hw']

namespace Run

variable {log : List Exchange} {globalId : String} {value : Value} {registry : Registry}

/-- **A removal takes exactly the subtree** of a node that is there, after every run in which no
cell is vacated so often that its generations begin again. -/
theorem takesSubtree_remove {allowed : Tree → Call → Prop}
    (h : Run allowed (.new globalId value registry) log t)
    (hlt : t.nodes.cells.length < UInt32.size) (hl : t.nodes.Lasting)
    (hn : t.contains n = true) :
    (t.remove n).result = .ok () ∧ TakesSubtree t n (t.remove n).tree :=
  ⟨Tree.result_remove hn, takesSubtree_of_forest (h.forest hlt hl).1 (h.coherent hlt) hn⟩

/-- For instance of a child with an implicit scope, which has a child of its own. -/
theorem takesSubtree_remove_of_scope :
    let t := ((Tree.new "global" .null .empty).calls siblings).2
    t.nodes.cells.length < UInt32.size ∧ t.nodes.Lasting ∧ t.contains ⟨2, 0⟩ = true ∧
      t.Subtree ⟨2, 0⟩ ⟨4, 0⟩ ∧ t.children ⟨0, 0⟩ = [⟨2, 0⟩, ⟨1, 1⟩] ∧
      (t.remove ⟨2, 0⟩).tree.children ⟨0, 0⟩ = [⟨1, 1⟩] := by
  have hrun := @Run.of_calls AnyCall (Tree.new "global" .null .empty) siblings fun _ _ _ => trivial
  have hn : ((Tree.new "global" .null .empty).calls siblings).2.contains ⟨2, 0⟩ = true := by cbv
  have htakes := (takesSubtree_remove hrun cells_lt_siblings lasting_siblings hn).2
  have hgone := (htakes.gone ⟨4, 0⟩).mp ⟨by cbv, ne_true_of_eq_false (by cbv)⟩
  have hchildren := htakes.children ⟨0, 0⟩ (by cbv)
  exact ⟨cells_lt_siblings, lasting_siblings, hn, hgone, by cbv, hchildren.trans (by cbv)⟩

end Run

end DataBinding.Scope
