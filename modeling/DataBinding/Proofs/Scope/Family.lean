import DataBinding.Proofs.Scope.Identities
import DataBinding.Proofs.Scope.Fresh

/-!
# A node stays where it was born

No call moves a node. A root stays without a parent, a child stays the child of its parent and an
implicit scope stays the scope of its node, each until it is removed. So the history of a run says
what the links are.

* `Relink.parentOf`, `Relink.scopeOf`, `Relink.childrenOf`: the links after a call.
* `Birth.Placed`: what the birth of a node says of its links.
* `Raised`: what the births say of a tree; `Raised.relink`, `Raised.calls`: every call keeps it.
* `ForestBut.exists_top`, `Raised.exists_root`: every node is below a root or a scope of one.
* `Run.holds_globalId`: no node comes to hold the global context.
* `family_calls`: what the births of a run say of the nodes that are there.
-/

namespace DataBinding.Scope

variable {t u : Tree} {x y : NodeId}

/-! ## Links after a removal -/

section Remove

variable {p : NodeId}

theorem mem_removed_self (hx : t.contains x = true) : x ∈ t.removed x :=
  mem_dismantle_of_mem (List.mem_singleton_self x) ((contains_unlink t x x).trans hx)

/-- With a node its implicit scope goes. -/
theorem scope_goes {m i : NodeId} (hm : m ∈ t.removed x) (hi : scopeOf t.nodes m = some i)
    (hlive : t.nodes.contains i = true) : i ∈ t.removed x :=
  mem_dismantle_of_below hm (Or.inr ((scopeOf_unlink t x m).trans hi))
    ((contains_unlink t x i).trans hlive)

theorem parentOf_remove (hx : t.contains x = true) (hy : y ∉ t.removed x) :
    parentOf (t.remove x).tree.nodes y = parentOf t.nodes y := by
  rw [(alike_remove hx).sameLinks.parent, ← parentOf_unlink t x y]
  exact Option.ext fun p => parentOf_dismantle.trans (and_iff_right hy)

theorem childrenOf_unlink {loose : NodeId → Prop} (h : ForestBut t.nodes loose) (x p : NodeId) :
    childrenOf (t.unlink x).nodes p = (childrenOf t.nodes p).filter (· != x) := by
  have hother : parentOf t.nodes x ≠ some p →
      (childrenOf t.nodes p).filter (· != x) = childrenOf t.nodes p := fun hne =>
    List.filter_eq_self.mpr fun y hy => bne_iff_ne.mpr fun he => hne (he ▸ h.parent_of_child hy)
  obtain ⟨hq, hu⟩ | ⟨q, hq, hu⟩ := t.unlink_cases x <;> rw [hu]
  · refine (hother fun hp => ?_).symm
    cases hp.symm.trans hq
  · unfold Tree.modifyNode
    rw [childrenOf, Arena.get?_modify]
    by_cases hpq : p = q
    · rw [if_pos hpq, hpq, childrenOf]
      cases t.nodes.get? q <;> rfl
    · rw [if_neg hpq]
      exact (hother fun hp => hpq (Option.some.inj (hp.symm.trans hq))).symm

/-- Of the children of a node that stays, only the node removed goes. -/
theorem mem_removed_iff_of_child (h : ForestBut t.nodes (· = x)) (hx : t.contains x = true)
    (hp : p ∉ t.removed x) (hy : y ∈ childrenOf t.nodes p) : y ∈ t.removed x ↔ y = x := by
  constructor
  case mpr =>
    rintro rfl
    exact mem_removed_self hx
  intro hyR
  rcases mem_of_mem_dismantle hyR with hmem | ⟨z, hz, hc | hs⟩
  · exact List.mem_singleton.mp hmem
  · rw [childrenOf_unlink h] at hc
    have hyz := h.parent_of_child (List.mem_of_mem_filter hc)
    obtain rfl := Option.some.inj ((h.parent_of_child hy).symm.trans hyz)
    exact absurd hz hp
  · rw [scopeOf_unlink] at hs
    exact absurd hy (h.scope_not_child hs)

/-- The children of a node that stays are those that are left once the node removed is struck
off. -/
theorem childrenOf_remove_eq (hx : t.contains x = true) (hp : p ∉ t.removed x) :
    childrenOf (t.remove x).tree.nodes p = childrenOf (t.unlink x).nodes p := by
  rw [(alike_remove hx).sameLinks.children, childrenOf, childrenOf]
  exact congrArg (fun n => (Option.map Node.children n).getD [])
    ((get?_dismantle (t.unlink x).nodes [x] p).trans (if_neg hp))

/-- The children of a node that stays are those of them that stay. -/
theorem childrenOf_remove (h : ForestBut t.nodes (· = x)) (hx : t.contains x = true)
    (hp : p ∉ t.removed x) :
    childrenOf (t.remove x).tree.nodes p =
      (childrenOf t.nodes p).filter (t.remove x).tree.nodes.contains := by
  rw [childrenOf_remove_eq hx hp, childrenOf_unlink h]
  refine List.filter_congr fun y hy => ?_
  rw [Bool.eq_iff_iff, bne_iff_ne, contains_remove hx, mem_removed_iff_of_child h hx hp hy]
  exact (and_iff_left (contains_of_parentOf (h.parent_of_child hy))).symm

end Remove

/-! ## Links after a node is put in -/

theorem childrenOf_of_gone (hx : ¬ t.nodes.contains x = true) : childrenOf t.nodes x = [] := by
  rw [childrenOf, Arena.get?_of_not_contains hx]
  rfl

section Add

variable {parent : Option NodeId} {p q m : NodeId}

theorem childrenOf_addNode (hs : t.nodes.Sound)
    (hlt : (t.addNode parent).nodes.cells.length < UInt32.size) (q : NodeId) :
    childrenOf (t.addNode parent).nodes q = childrenOf t.nodes q :=
  have hold := (grows_addNode t parent).cells_lt hlt
  childrenOf_alloc hs (Nat.le_of_lt hlt) (Arena.get?_nextId hs hold) rfl q

theorem parentOf_addNode_nextId (hs : t.nodes.Sound)
    (hlt : (t.addNode parent).nodes.cells.length < UInt32.size) :
    parentOf (t.addNode parent).nodes t.nodes.nextId = parent :=
  (parentOf_alloc hs (Nat.le_of_lt hlt) _).trans (if_pos rfl)

theorem parentOf_addLeaf (t : Tree) (p x : NodeId) :
    parentOf (t.addLeaf p).nodes x = parentOf (t.addNode (some p)).nodes x :=
  parentOf_modify (f := fun n => { n with children := n.children ++ [t.nodes.nextId] }) _ _
    (fun _ => rfl) x

theorem childrenOf_addLeaf (hs : t.nodes.Sound) (hp : t.nodes.contains p = true)
    (hlt : (t.addLeaf p).nodes.cells.length < UInt32.size) (q : NodeId) :
    childrenOf (t.addLeaf p).nodes q =
      childrenOf t.nodes q ++ if q = p then [t.nodes.nextId] else [] := by
  have hlt' := (grows_addLeaf t p).cells_lt hlt
  rw [← childrenOf_addNode hs hlt' q, childrenOf, childrenOf]
  unfold Tree.addLeaf Tree.modifyNode
  rw [Arena.get?_modify]
  by_cases hq : q = p
  · obtain ⟨n, hn⟩ := Arena.contains_iff.mp ((contains_addNode hs hlt').mpr (Or.inr hp))
    rw [if_pos hq, if_pos hq, hq, hn]
    rfl
  · rw [if_neg hq, if_neg hq, List.append_nil]

theorem parentOf_addScope (t : Tree) (m : NodeId) (parent : Option NodeId) (x : NodeId) :
    parentOf (t.addScope m parent).nodes x = parentOf (t.addNode parent).nodes x :=
  parentOf_modify (f := fun n => { n with implicit := some t.nodes.nextId }) _ _ (fun _ => rfl) x

theorem childrenOf_addScope (t : Tree) (m : NodeId) (parent : Option NodeId) (x : NodeId) :
    childrenOf (t.addScope m parent).nodes x = childrenOf (t.addNode parent).nodes x :=
  childrenOf_modify (f := fun n => { n with implicit := some t.nodes.nextId }) _ _ (fun _ => rfl) x

theorem parentOf_dropScope (t : Tree) (m x : NodeId) :
    parentOf (t.dropScope m).nodes x = parentOf t.nodes x :=
  parentOf_modify (f := fun n => { n with implicit := none }) _ _ (fun _ => rfl) x

theorem childrenOf_dropScope (t : Tree) (m x : NodeId) :
    childrenOf (t.dropScope m).nodes x = childrenOf t.nodes x :=
  childrenOf_modify (f := fun n => { n with implicit := none }) _ _ (fun _ => rfl) x

end Add

/-! ## What a birth says -/

namespace Birth

/-- The node is where it was born. -/
def Placed (nodes : Arena Node) (b : Birth) : Prop :=
  match b.call with
  | .addRoot => parentOf nodes b.node = none
  | .addChild p => parentOf nodes b.node = some p
  | .setImplicit m _ _ => scopeOf nodes m = some b.node
  | _ => False

/-- The node, if it was born as a child of `p`. -/
def childOf? (p : NodeId) (b : Birth) : Option NodeId :=
  match b.call with
  | .addChild q => if p = q then some b.node else none
  | _ => none

theorem childOf?_eq_some {p : NodeId} {b : Birth} (h : b.childOf? p = some x) :
    b.call = .addChild p ∧ b.node = x := by
  obtain ⟨c, y⟩ := b
  cases c with
  | addChild q =>
    obtain ⟨hpq, hyx⟩ := Option.ite_none_right_eq_some.mp h
    exact ⟨congrArg Call.addChild hpq.symm, Option.some.inj hyx⟩
  | _ => cases h

end Birth

theorem Recorded.nodup_childOf? {births : List Birth} {deaths : List NodeId}
    (h : Recorded births deaths t) (p : NodeId) :
    (births.filterMap (Birth.childOf? p)).Nodup := by
  refine h.distinct.of_map.filterMap fun b d x hb hd => ?_
  obtain ⟨hbc, hbx⟩ := Birth.childOf?_eq_some hb
  obtain ⟨hdc, hdx⟩ := Birth.childOf?_eq_some hd
  obtain ⟨c, y⟩ := b
  exact congrArg₂ Birth.mk (hbc.trans hdc.symm) (hbx.trans hdx.symm)

/-! ## Links after a call -/

namespace Relink

variable {c : Call} {made : Option NodeId} {gone : List NodeId}

/-- **No node gets another parent.** -/
theorem parentOf_eq (h : Relink t c u made gone) (hs : t.nodes.Sound)
    (hlt : u.nodes.cells.length < UInt32.size) (hx : t.nodes.contains x = true)
    (hux : u.nodes.contains x = true) : parentOf u.nodes x = parentOf t.nodes x := by
  cases h with
  | same hl => exact hl.parent x
  | root => exact parentOf_addNode_of_live hs hlt hx
  | leaf _ =>
    exact (parentOf_addLeaf ..).trans
      (parentOf_addNode_of_live hs ((grows_addLeaf ..).cells_lt hlt) hx)
  | scope _ _ hl hg =>
    exact (hl.parent x).trans ((parentOf_addScope ..).trans
      (parentOf_addNode_of_live hs ((grows_addScope ..).cells_lt (hg.cells_lt hlt)) hx))
  | remove hlive => exact parentOf_remove hlive ((contains_remove hlive).mp hux).1
  | @clearScope m i _ hlive =>
    have hlive' : (t.dropScope m).contains i = true := (contains_dropScope t m i).trans hlive
    exact (parentOf_remove hlive' ((contains_remove hlive').mp hux).1).trans
      (parentOf_dropScope ..)
  | dropScope _ => exact parentOf_dropScope ..

/-- **No node loses its implicit scope** but with the scope itself. -/
theorem scopeOf_eq (h : Relink t c u made gone) (hs : t.nodes.Sound)
    (hlt : u.nodes.cells.length < UInt32.size) {m i : NodeId} (hi : scopeOf t.nodes m = some i)
    (hlive : t.nodes.contains i = true) (hui : u.nodes.contains i = true) :
    scopeOf u.nodes m = some i := by
  cases h with
  | same hl => exact (hl.scope m).trans hi
  | root => exact (scopeOf_addNode hs hlt m).trans hi
  | leaf _ => exact (scopeOf_addLeaf hs hlt m).trans hi
  | @scope k _ _ _ hk hold hl hg =>
    rw [hl.scope, scopeOf_addScope hs hk (hg.cells_lt hlt), if_neg, hi]
    rintro rfl
    exact hold i hi hlive
  | remove hx =>
    exact (scopeOf_remove hx).mpr ⟨fun hm =>
      ((contains_remove hx).mp hui).1 (scope_goes hm hi hlive), hi⟩
  | @clearScope k j hj hjlive =>
    have hx : (t.dropScope k).contains j = true := (contains_dropScope t k j).trans hjlive
    have hiR := ((contains_remove hx).mp hui).1
    have hmk : m ≠ k := by
      rintro rfl
      obtain rfl := Option.some.inj (hi.symm.trans hj)
      exact hiR (mem_removed_self hx)
    have hdrop : scopeOf (t.dropScope k).nodes m = some i := scopeOf_dropScope.mpr ⟨hmk, hi⟩
    exact (scopeOf_remove hx).mpr ⟨fun hm =>
      hiR (scope_goes hm hdrop ((contains_dropScope t k i).trans hlive)), hdrop⟩
  | @dropScope k hold =>
    refine scopeOf_dropScope.mpr ⟨?_, hi⟩
    rintro rfl
    exact hold i hi hlive

/-- **The children of a node** are those of its old ones that are there, and then the one that is
made. -/
theorem childrenOf_eq (h : Relink t c u made gone) (hf : Forest t.nodes) (hs : t.nodes.Sound)
    (hlt : u.nodes.cells.length < UInt32.size) {p : NodeId} (hp : u.nodes.contains p = true) :
    childrenOf u.nodes p = (childrenOf t.nodes p).filter u.nodes.contains ++
      (made.toList.map (Birth.mk c)).filterMap (Birth.childOf? p) := by
  -- where no node is removed, all children stay
  have hstay : gone = [] →
      (childrenOf t.nodes p).filter u.nodes.contains = childrenOf t.nodes p := fun hgone =>
    List.filter_eq_self.mpr fun y hy => (h.contains_iff hs hlt).mpr
      ⟨Or.inl (contains_of_parentOf (hf.parent_of_child hy)), hgone ▸ List.not_mem_nil⟩
  cases h with
  | same hl =>
    rw [hstay rfl, hl.children]
    exact (List.append_nil _).symm
  | root =>
    rw [hstay rfl, childrenOf_addNode hs hlt]
    exact (List.append_nil _).symm
  | @leaf q hq =>
    rw [hstay rfl, childrenOf_addLeaf hs hq hlt]
    by_cases hpq : p = q
    · simp [Birth.childOf?, hpq]
    · simp [Birth.childOf?, hpq]
  | scope hm _ hl hg =>
    rw [hstay rfl, hl.children, childrenOf_addScope,
      childrenOf_addNode hs ((grows_addScope ..).cells_lt (hg.cells_lt hlt))]
    exact (List.append_nil _).symm
  | remove hx =>
    rw [childrenOf_remove (hf.mono nofun) hx ((contains_remove hx).mp hp).1]
    exact (List.append_nil _).symm
  | @clearScope m i hi hlive =>
    have hx : (t.dropScope m).contains i = true := (contains_dropScope t m i).trans hlive
    rw [childrenOf_remove (forestBut_dropScope hf hi) hx ((contains_remove hx).mp hp).1,
      childrenOf_dropScope]
    exact (List.append_nil _).symm
  | dropScope _ =>
    rw [hstay rfl, childrenOf_dropScope]
    exact (List.append_nil _).symm

/-- A node is born where its birth says. -/
theorem placed (h : Relink t c u made gone) (hs : t.nodes.Sound)
    (hlt : u.nodes.cells.length < UInt32.size) (hx : made = some x) :
    Birth.Placed u.nodes ⟨c, x⟩ := by
  obtain rfl := h.eq_nextId hx
  cases h with
  | root => exact parentOf_addNode_nextId hs hlt
  | leaf _ =>
    exact (parentOf_addLeaf ..).trans
      (parentOf_addNode_nextId hs ((grows_addLeaf ..).cells_lt hlt))
  | scope hm _ hl hg =>
    exact (hl.scope _).trans ((scopeOf_addScope hs hm (hg.cells_lt hlt) _).trans (if_pos rfl))
  | _ => cases hx

/-- A node that stays, stays where it was born. -/
theorem placed_of_placed (h : Relink t c u made gone) (hs : t.nodes.Sound)
    (hlt : u.nodes.cells.length < UInt32.size) {b : Birth} (hx : t.nodes.contains b.node = true)
    (hux : u.nodes.contains b.node = true) (hb : b.Placed t.nodes) : b.Placed u.nodes := by
  obtain ⟨d, x⟩ := b
  cases d with
  | addRoot => exact (h.parentOf_eq hs hlt hx hux).trans hb
  | addChild p => exact (h.parentOf_eq hs hlt hx hux).trans hb
  | setImplicit m e value => exact h.scopeOf_eq hs hlt hb hx hux
  | _ => exact hb.elim

theorem contains_made (h : Relink t c u made gone) (hs : t.nodes.Sound)
    (hlt : u.nodes.cells.length < UInt32.size) (hx : made = some x) :
    u.nodes.contains x = true := by
  refine (h.contains_iff hs hlt).mpr ⟨Or.inr hx, ?_⟩
  cases h with
  | root | leaf | scope => exact List.not_mem_nil
  | _ => cases hx

/-- The parent of a child that is made was there before. -/
theorem parent_live {p : NodeId} (h : Relink t (.addChild p) u made gone) (hx : made = some x) :
    t.nodes.contains p = true := by
  cases h with
  | same _ => cases hx
  | leaf hp => exact hp

end Relink

/-! ## A sequence of calls -/

/-- The nodes that are there are where they were born, and children are listed in the order of
their births. -/
structure Raised (births : List Birth) (t : Tree) : Prop where
  placed : ∀ b ∈ births, t.nodes.contains b.node = true → b.Placed t.nodes
  children : ∀ p, t.nodes.contains p = true →
    childrenOf t.nodes p = (births.filterMap (Birth.childOf? p)).filter t.nodes.contains
  parents : ∀ b ∈ births, ∀ p, b.call = .addChild p → p ∈ births.map Birth.node

namespace Raised

variable {births : List Birth} {deaths : List NodeId}

theorem new (globalId : String) (value : Value) (registry : Registry) :
    Raised [] (Tree.new globalId value registry) where
  placed := nofun
  children p hp := by
    rw [Tree.new, Arena.contains, get?_empty] at hp
    cases hp
  parents := nofun

theorem mem_of_childOf? {p : NodeId} (hx : x ∈ births.filterMap (Birth.childOf? p)) :
    x ∈ births.map Birth.node := by
  obtain ⟨b, hb, he⟩ := List.mem_filterMap.mp hx
  exact List.mem_map.mpr ⟨b, hb, (Birth.childOf?_eq_some he).2⟩

/-- A node that was not yet born has no children. -/
theorem filterMap_childOf?_eq_nil (h : Raised births t) {p : NodeId}
    (hp : p ∉ births.map Birth.node) : births.filterMap (Birth.childOf? p) = [] :=
  List.filterMap_eq_nil_iff.mpr fun b hb => by
    cases hc : b.childOf? p with
    | none => rfl
    | some x => exact absurd (h.parents b hb p (Birth.childOf?_eq_some hc).1) hp

/-- The nodes listed as children of a node are those born as its children, also if the node is to be
made only now. -/
theorem filter_childrenOf (h : Raised births t) {p : NodeId}
    (hold : ∀ x ∈ births.map Birth.node, u.nodes.contains x = true → t.nodes.contains x = true)
    (hp : u.nodes.contains p = true) :
    (childrenOf t.nodes p).filter u.nodes.contains =
      (births.filterMap (Birth.childOf? p)).filter u.nodes.contains := by
  by_cases htp : t.nodes.contains p = true
  · rw [h.children p htp, List.filter_filter]
    refine List.filter_congr fun x hx => ?_
    rw [Bool.eq_iff_iff, Bool.and_eq_true]
    exact and_iff_left_of_imp (hold x (mem_of_childOf? hx))
  · rw [childrenOf_of_gone htp, h.filterMap_childOf?_eq_nil fun hpb => htp (hold p hpb hp)]

/-- **Every call keeps it.** -/
theorem call (h : Raised births t) (hr : Recorded births deaths t) (hf : Forest t.nodes)
    (hs : t.nodes.Sound) (c : Call) (hlt : (t.call c).tree.nodes.cells.length < UInt32.size)
    (hl : (t.call c).tree.nodes.Lasting) : Raised (births ++ t.birth c) (t.call c).tree := by
  have hre := Tree.relink_call hs c hlt
  have hold : ∀ x ∈ births.map Birth.node, (t.call c).tree.nodes.contains x = true →
      t.nodes.contains x = true := fun x hx => hr.contains_before hs hlt hl hx
  constructor
  case placed =>
    intro b hb hub
    rcases List.mem_append.mp hb with hb | hb
    · have hlive := hold _ (List.mem_map_of_mem hb) hub
      exact hre.placed_of_placed hs hlt hlive hub (h.placed b hb hlive)
    · obtain ⟨rfl, hmade⟩ := Tree.mem_birth.mp hb
      exact hre.placed hs hlt hmade
  case children =>
    intro p hp
    have hnew : ((t.birth c).filterMap (Birth.childOf? p)).filter
        (t.call c).tree.nodes.contains = (t.birth c).filterMap (Birth.childOf? p) := by
      refine List.filter_eq_self.mpr fun x hx => ?_
      obtain ⟨b, hb, hbx⟩ := List.mem_filterMap.mp hx
      obtain ⟨-, rfl⟩ := Birth.childOf?_eq_some hbx
      exact hre.contains_made hs hlt (Tree.mem_birth.mp hb).2
    rw [hre.childrenOf_eq hf hs hlt hp, List.filterMap_append, List.filter_append, hnew,
      h.filter_childrenOf hold hp]
    rfl
  case parents =>
    intro b hb p hbp
    rw [List.map_append]
    refine List.mem_append_left _ ?_
    rcases List.mem_append.mp hb with hb | hb
    · exact h.parents b hb p hbp
    · obtain ⟨rfl, hmade⟩ := Tree.mem_birth.mp hb
      rw [hbp] at hre hmade
      exact ((hr.live_iff p).mp (hre.parent_live hmade)).1

/-- **A sequence of calls keeps it.** -/
theorem calls {log : List Exchange} {globalId : String} {value : Value} {registry : Registry}
    (hrun : Run AnyCall (.new globalId value registry) log t) (h : Raised births t)
    (hr : Recorded births deaths t) (cs : List Call)
    (hlt : (t.calls cs).2.nodes.cells.length < UInt32.size) (hl : (t.calls cs).2.nodes.Lasting) :
    Raised (births ++ t.births cs) (t.calls cs).2 := by
  induction cs generalizing births deaths log t with
  | nil => simpa [Tree.births, Tree.calls] using h
  | cons c cs ih =>
    have hg := (t.call c).tree.grows_calls cs
    have hlt' := hg.cells_lt hlt
    have hl' := hg.lasting (Nat.le_of_lt hlt') hl
    have hlt₀ := (t.grows_call c).cells_lt hlt'
    have hs := (hrun.coherent hlt₀).sound
    have hf := (hrun.forest hlt₀ ((t.grows_call c).lasting (Nat.le_of_lt hlt₀) hl')).1
    have := ih (.call c hrun trivial) (h.call hr hf hs c hlt' hl') (hr.call hs c hlt' hl') hlt hl
    simpa only [Tree.births, Tree.calls, List.append_assoc] using this

end Raised

/-! ## Nodes without a parent -/

/-- Going from parent to parent ends. -/
theorem ForestBut.exists_top {loose : NodeId → Prop} (h : ForestBut t.nodes loose)
    (hx : t.contains x = true) :
    ∃ r, Relation.ReflTransGen (fun y p => t.parent? y = some p) x r ∧ t.contains r = true ∧
      t.parent? r = none := by
  obtain ⟨depth, level, hr⟩ := h.ranked
  induction hd : depth x using Nat.strong_induction_on generalizing x with
  | _ d ih =>
    cases hp : t.parent? x with
    | none => exact ⟨x, .refl, hx, hp⟩
    | some p =>
      obtain ⟨r, hpr, hlive, htop⟩ := ih (depth p) (hd ▸ hr.parent hp) (h.parent_live hp) rfl
      exact ⟨r, .head hp hpr, hlive, htop⟩

/-- A node without a parent is a root, or hangs from one by implicit scopes. -/
theorem Raised.exists_root {births : List Birth} {deaths : List NodeId} (h : Raised births t)
    (hr : Recorded births deaths t) (hf : Forest t.nodes) (hx : t.contains x = true)
    (htop : t.parent? x = none) :
    ∃ r, ⟨.addRoot, r⟩ ∈ births ∧ t.contains r = true ∧ Nested t.nodes r x := by
  obtain ⟨depth, level, hrank⟩ := hf.ranked
  induction hd : level x using Nat.strong_induction_on generalizing x with
  | _ d ih =>
    obtain ⟨⟨c, y⟩, hb, rfl⟩ := List.mem_map.mp ((hr.live_iff x).mp hx).1
    have hplaced := h.placed _ hb hx
    cases c with
    | addRoot => exact ⟨y, hb, hx, .refl⟩
    | addChild p => cases hplaced.symm.trans htop
    | setImplicit m e value =>
      have hm : scopeOf t.nodes m = some y := hplaced
      have hlevel := (hrank.scope hm hx).2
      obtain ⟨r, hrb, hlive, hrm⟩ := ih (level m) (hd ▸ hlevel) (contains_of_scopeOf hm)
        ((hf.scope_parent hm hx).symm.trans htop) rfl
      exact ⟨r, hrb, hlive, hrm.tail ⟨hm, hx⟩⟩
    | _ => exact hplaced.elim

/-! ## The global context -/

/-- No change makes a node hold the global context. -/
theorem holds_change (hs : t.nodes.Sound) {spared : Prop} (hc : Change spared t u)
    (hlt : u.nodes.cells.length < UInt32.size) (hx : u.holds t.globalId x = true) :
    t.holds t.globalId x = true := by
  have hcut : ∀ {s : Tree} {y : NodeId}, s.contains y = true →
      ((s.remove y).tree.slot? ⟨.node x, t.globalId⟩).isSome = true →
        (s.slot? ⟨.node x, t.globalId⟩).isSome = true := by
    intro s y hy hslot
    rw [(alike_remove hy).slot?_isSome, Tree.slot?_cut] at hslot
    split at hslot
    · cases hslot
    · exact hslot
  rw [holds_eq_isSome_slot?] at hx ⊢
  cases hc with
  | addRoot => rwa [Tree.slot?_addNode hs hlt] at hx
  | addLeaf _ => rwa [Tree.slot?_addLeaf hs hlt] at hx
  | addScope _ _ => rwa [Tree.slot?_addScope hs hlt] at hx
  | write f hT _ =>
    rw [Tree.slot?_write hT Target.proper_node] at hx
    split at hx
    · rwa [Option.isSome_map] at hx
    · exact hx
  | addContext value hc _ _ =>
    rw [(alike_rebindWhere _ _).slot?_isSome, Tree.slot?_addContext, if_neg] at hx
    · exact hx
    · exact fun he => hc (congrArg Target.context he.1).symm
  | remove hy _ => exact hcut hy hx
  | @clearScope m i _ hlive =>
    have := hcut ((contains_dropScope t m i).trans hlive) hx
    rwa [Tree.slot?_dropScope] at this
  | dropScope _ => rwa [Tree.slot?_dropScope] at hx
  | register y subject _ _ => rwa [(alike_register ..).slot?_isSome] at hx
  | unsubscribe id => rwa [(alike_unsubscribe ..).slot?_isSome] at hx

/-- **No node ever holds the global context.** -/
theorem Run.holds_globalId {allowed : Tree → Call → Prop} {log : List Exchange}
    {globalId : String} {value : Value} {registry : Registry}
    (h : Run allowed (.new globalId value registry) log t)
    (hlt : t.nodes.cells.length < UInt32.size) (x : NodeId) : t.holds t.globalId x = false := by
  refine (h.keeps_tree (P := fun t => Coherent t ∧ ∀ x, t.holds t.globalId x = false) hlt
    ⟨coherent_new .., fun x => ?_⟩ fun _ hc hlt ⟨hcoh, hold⟩ => ?_).2 x
  · have hx : (Tree.new globalId value registry).node? x = none := get?_empty x
    rw [Tree.holds, hx]
  · refine ⟨hcoh.change hc hlt, fun x => Bool.eq_false_iff.mpr fun hx => ?_⟩
    rw [hc.globalId] at hx
    have := holds_change hcoh.sound hc hlt hx
    rw [hold x] at this
    cases this

/-! ## The family -/

/-- What the births of a run say of the nodes, and the free list of the cells. -/
structure Family (births : List Birth) (t : Tree) : Prop where
  /-- A parent is there. -/
  parent : ∀ x p, t.parent? x = some p → t.contains p = true
  /-- No child is listed twice. -/
  nodup : ∀ p, t.contains p = true → (t.children p).Nodup
  /-- The children of a node are those made for it that are there, in the order of their births. -/
  children : ∀ p, t.contains p = true →
    t.children p = (births.filterMap (Birth.childOf? p)).filter t.contains
  /-- An implicit scope is the scope of the node that it was made for, and of no other. It has the
  same parent and is nobody's child. -/
  scope : ∀ m c value i, ⟨.setImplicit m c value, i⟩ ∈ births → t.contains i = true →
    t.contains m = true ∧ (∀ k, scopeOf t.nodes k = some i ↔ k = m) ∧
      t.parent? i = t.parent? m ∧ ∀ p, i ∉ t.children p
  /-- The parents end at a root, or at one of the implicit scopes that hang from a root. -/
  top : ∀ x, t.contains x = true →
    ∃ y, Relation.ReflTransGen (fun y p => t.parent? y = some p) x y ∧ t.parent? y = none ∧
      ∃ r, ⟨.addRoot, r⟩ ∈ births ∧ t.contains r = true ∧ Nested t.nodes r y
  /-- No node holds the global context. -/
  global : ∀ x, t.holds t.globalId x = false
  /-- Each empty cell is free once, and no other is. -/
  free : t.nodes.free.Nodup ∧
    ∀ i : UInt32, i ∈ t.nodes.free ↔ ∃ c, t.nodes.cells[i.toNat]? = some c ∧ c.content = none

/-- **The nodes form a forest**, whose links are those that the nodes were born with. -/
theorem family_calls {globalId : String} {value : Value} {registry : Registry}
    (calls : List Call)
    (hlt : ((Tree.new globalId value registry).calls calls).2.nodes.cells.length < UInt32.size)
    (hl : ((Tree.new globalId value registry).calls calls).2.nodes.Lasting) :
    Family ((Tree.new globalId value registry).births calls)
      ((Tree.new globalId value registry).calls calls).2 := by
  have hrun : Run AnyCall (.new globalId value registry) _
      ((Tree.new globalId value registry).calls calls).2 := Run.of_calls fun _ _ _ => trivial
  have hr := (Recorded.new globalId value registry).calls (coherent_new ..) calls hlt hl
  have hb := (Raised.new globalId value registry).calls .start (.new ..) calls hlt hl
  rw [List.nil_append] at hr hb
  have hf := (hrun.forest hlt hl).1
  have hs := (hrun.coherent hlt).sound
  constructor
  case parent => exact fun x p hp => hf.parent_live hp
  case children => exact hb.children
  case nodup =>
    intro p hp
    change (childrenOf _ p).Nodup
    rw [hb.children p hp]
    exact (hr.nodup_childOf? p).filter _
  case scope =>
    intro m c value i hi hlive
    have hm : scopeOf _ m = some i := hb.placed _ hi hlive
    refine ⟨contains_of_scopeOf hm, fun k => ⟨fun hk => hf.scope_owner hk hm hlive, ?_⟩,
      hf.scope_parent hm hlive, fun p => hf.scope_not_child hm⟩
    rintro rfl
    exact hm
  case top =>
    intro x hx
    obtain ⟨y, hxy, hlive, htop⟩ := hf.exists_top hx
    exact ⟨y, hxy, htop, hb.exists_root hr hf hlive htop⟩
  case global => exact hrun.holds_globalId hlt
  case free => exact ⟨hs.nodup, hs.mem_free⟩

/-! ## A root with two children -/

/-- A root with two children, of which the second has an implicit scope with a child of its own;
then the first child is removed, another one is made in its cell, and the root gets a scope. -/
def siblings : List Call :=
  [.addRoot, .addChild ⟨0, 0⟩, .addChild ⟨0, 0⟩, .setImplicit ⟨2, 0⟩ "a" .null,
    .addChild ⟨3, 0⟩, .remove ⟨1, 0⟩, .addChild ⟨0, 0⟩, .setImplicit ⟨0, 0⟩ "a" .null]

theorem births_siblings : (Tree.new "global" .null .empty).births siblings =
    [⟨.addRoot, ⟨0, 0⟩⟩, ⟨.addChild ⟨0, 0⟩, ⟨1, 0⟩⟩, ⟨.addChild ⟨0, 0⟩, ⟨2, 0⟩⟩,
      ⟨.setImplicit ⟨2, 0⟩ "a" .null, ⟨3, 0⟩⟩, ⟨.addChild ⟨3, 0⟩, ⟨4, 0⟩⟩,
      ⟨.addChild ⟨0, 0⟩, ⟨1, 1⟩⟩, ⟨.setImplicit ⟨0, 0⟩ "a" .null, ⟨5, 0⟩⟩] := by
  cbv

theorem cells_lt_siblings :
    ((Tree.new "global" .null .empty).calls siblings).2.nodes.cells.length < UInt32.size := by
  have hcells : ((Tree.new "global" .null .empty).calls siblings).2.nodes.cells.length = 6 := by
    cbv
  rw [hcells]
  decide

theorem lasting_siblings :
    ((Tree.new "global" .null .empty).calls siblings).2.nodes.Lasting := by
  have hvacated : ((Tree.new "global" .null .empty).calls siblings).2.nodes.cells.map
      Cell.vacated = [0, 1, 0, 0, 0, 0] := by cbv
  exact Arena.lasting_of_vacated hvacated (by decide)

/-- The child made last is listed last, though its cell comes first. -/
theorem family_calls_of_siblings :
    ((Tree.new "global" .null .empty).calls siblings).2.nodes.cells.length < UInt32.size ∧
      ((Tree.new "global" .null .empty).calls siblings).2.nodes.Lasting ∧
      ((Tree.new "global" .null .empty).calls siblings).2.children ⟨0, 0⟩ =
        [⟨2, 0⟩, ⟨1, 1⟩] ∧
      (∀ k, scopeOf ((Tree.new "global" .null .empty).calls siblings).2.nodes k = some ⟨3, 0⟩ ↔
        k = ⟨2, 0⟩) := by
  have h := family_calls siblings cells_lt_siblings lasting_siblings
  rw [births_siblings] at h
  have hroot : ((Tree.new "global" .null .empty).calls siblings).2.contains ⟨0, 0⟩ = true := by
    cbv
  have hscope : ((Tree.new "global" .null .empty).calls siblings).2.contains ⟨3, 0⟩ = true := by
    cbv
  refine ⟨cells_lt_siblings, lasting_siblings, (h.children _ hroot).trans (by cbv),
    (h.scope ⟨2, 0⟩ "a" .null ⟨3, 0⟩ (by simp) hscope).2.1⟩

end DataBinding.Scope
