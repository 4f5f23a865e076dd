import DataBinding.Proofs.Scope.Family

/-!
# The loops over the links end

Two loops follow the links of the nodes. A lookup goes from a node to its implicit scope, which was
made after it, or else to its parent, which was made before it. A removal takes an identity off a
list, takes its node out and puts what is below the node on the list. Cells are used again and a
scope that is named may be gone, so neither numbers nor ages order the nodes. The lookup ends
because the nodes form a forest, and an identity comes to the list once because all links to its
node agree.

* `Tree.LooksUp`: where a lookup goes, and in how many turns; `Tree.exists_looksUp`: it ends.
* `Worklist.pop`: one turn of a removal; `exists_trail_pop`: the loop ends, and what came off its
  list.
* `nodup_popped`: no node that is there comes off the list twice.
* `Tree.TakesApart`: what a removal goes through.
* `Run.nodup_children`, `Run.loopsEnd`: no child is listed twice, and both loops end, after every
  run.
-/

namespace DataBinding.Scope

variable {t u : Tree}

/-! ## Lookups -/

namespace Tree

variable {loose : NodeId → Prop} {c : String} {x last : NodeId} {passed : List NodeId}

/-- A lookup for a context goes from a node by the nodes that it passes to where it ends. -/
structure LooksUp (t : Tree) (c : String) (x : NodeId) (passed : List NodeId) (last : NodeId) :
    Prop where
  trail : Trail (t.pass c) x passed last
  /-- No node is visited twice. -/
  nodup : (passed ++ [last]).Nodup
  /-- The nodes that it passes are there; only the last may be gone. -/
  live : ∀ y ∈ passed, t.contains y = true
  /-- There are no more turns at nodes that are there than there are nodes. -/
  turns : passed.length + (t.contains last).toNat ≤ t.nodes.occupied
  /-- The lookup finds the context where it ends. -/
  owner : c ≠ t.globalId → t.owner? x c = if t.holds c last then some (.node last) else none

theorem exists_looksUp (h : ForestBut t.nodes loose) (c : String) (x : NodeId) :
    ∃ passed last, t.LooksUp c x passed last := by
  obtain ⟨passed, last, htrail⟩ := exists_trail_pass h c x
  have hlive : ∀ y ∈ passed, t.contains y = true := fun y hy => contains_of_trail htrail hy
  refine ⟨passed, last, htrail, htrail.nodup, hlive, ?_, fun hc => owner?_of_trail hc htrail⟩
  have hle := Arena.length_le_occupied (a := t.nodes) (htrail.nodup.filter t.contains)
    fun y hy => (List.mem_filter.mp hy).2
  rw [List.filter_append, List.filter_eq_self.mpr hlive, List.length_append] at hle
  cases hlast : t.contains last with
  | false => exact (Nat.le_add_right _ _).trans hle
  | true => rwa [List.filter_cons_of_pos hlast] at hle

end Tree

/-! ## Worklists -/

/-- Nodes on their way out: those left, the identities still to take off the list, the next one
first, and the identities taken out. -/
structure Worklist where
  nodes : Arena Node
  stack : List NodeId
  removed : List NodeId

namespace Worklist

/-- The identity that comes off the list next. -/
def top? (w : Worklist) : Option NodeId :=
  w.stack.head?

/-- One turn: an identity comes off the list. If its node is there, it is taken out, and what is
below it comes onto the list, the implicit scope to come off first and the first child last. -/
def pop (w : Worklist) : Option Worklist :=
  match w.stack with
  | [] => none
  | id :: rest =>
    match w.nodes.release? id with
    | none => some { w with stack := rest }
    | some (n, nodes) =>
      some ⟨nodes, n.implicit.toList ++ n.children.reverse ++ rest, w.removed ++ [id]⟩

end Worklist

/-- What is below a node: its implicit scope, and its children, the last one first. -/
def below (nodes : Arena Node) (y : NodeId) : List NodeId :=
  (scopeOf nodes y).toList ++ (childrenOf nodes y).reverse

section Below

variable {a : Arena Node} {id x y : NodeId}

theorem mem_below : x ∈ below a y ↔ Below a x y := by
  simp [below, Below, or_comm]

theorem below_of_get? {n : Node} (h : a.get? y = some n) :
    below a y = n.implicit.toList ++ n.children.reverse := by
  rw [below, scopeOf_of_get? h, childrenOf_of_get? h]

/-- What is below a node that stays is the same once another is taken out. -/
theorem below_release? {b : Arena Node} {n : Node} (h : a.release? id = some (n, b))
    (hy : y ≠ id) : below b y = below a y := by
  rw [below, below, scopeOf, childrenOf, Arena.get?_release? h, if_neg hy]
  rfl

end Below

/-- **A removal ends** with nothing on its list. What came off the list are the identities that were
on it and those below the nodes taken out. -/
theorem exists_trail_pop (a : Arena Node) (ids taken : List NodeId) :
    ∃ passed, Trail Worklist.pop ⟨a, ids, taken⟩ passed
        ⟨(dismantle a ids).1, [], taken ++ (dismantle a ids).2⟩ ∧
      (passed.filterMap Worklist.top?).Perm (ids ++ (dismantle a ids).2.flatMap (below a)) := by
  fun_induction dismantle a ids generalizing taken with
  | case1 a =>
    refine ⟨[], ?_, .refl _⟩
    rw [List.append_nil]
    exact .here rfl
  | case2 a id rest hr ih =>
    obtain ⟨passed, htrail, hperm⟩ := ih taken
    have hpop : Worklist.pop ⟨a, id :: rest, taken⟩ = some ⟨a, rest, taken⟩ := by
      simp only [Worklist.pop, hr]
    exact ⟨_, .further hpop htrail, hperm.cons id⟩
  | case3 a id rest n a' hr b removed heq ih =>
    obtain ⟨passed, htrail, hperm⟩ := ih (taken ++ [id])
    rw [heq] at htrail hperm
    have hpop : Worklist.pop ⟨a, id :: rest, taken⟩ =
        some ⟨a', n.implicit.toList ++ n.children.reverse ++ rest, taken ++ [id]⟩ := by
      simp only [Worklist.pop, hr]
    rw [← List.append_cons] at htrail
    refine ⟨_, .further hpop htrail, ?_⟩
    -- the nodes taken out after the first are still there, with the same below them
    have hbelow : removed.flatMap (below a') = removed.flatMap (below a) := by
      refine List.flatMap_congr fun y hy => below_release? hr fun he => ?_
      exact (releases_of_dismantle heq).not_mem hr (he ▸ hy)
    have hn := below_of_get? (Arena.release?_eq_some_iff.mp hr).1
    rw [hbelow, ← hn] at hperm
    refine (hperm.cons id).trans ?_
    rw [List.flatMap_cons, List.cons_append, ← List.append_assoc]
    exact (List.perm_append_comm.append_right _).cons id

section Once

variable {a : Arena Node} {id x y : NodeId}

/-- Whatever goes with a node lies deeper, or in the chain of its implicit scopes. -/
theorem Ranked.le_of_mem_dismantle {depth level : NodeId → Nat} (hr : Ranked a depth level)
    (h : ForestBut a (· = id)) (hy : y ∈ (dismantle a [id]).2) :
    depth id < depth y ∨ depth id = depth y ∧ level id ≤ level y := by
  refine of_mem_dismantle (P := fun y => depth id < depth y ∨
    depth id = depth y ∧ level id ≤ level y) (fun x hx _ => ?_) (fun {x y} hy hxy hlive => ?_) hy
  · rw [List.mem_singleton.mp hx]
    exact Or.inr ⟨rfl, Nat.le_refl _⟩
  · rcases hxy with hchild | hscope
    · have := hr.parent (h.parent_of_child hchild)
      omega
    · have := hr.scope hscope hlive
      omega

/-- A node asked for is not below a node that goes with it. -/
theorem not_mem_below (h : ForestBut a (· = id)) (hid : ∀ p, id ∉ childrenOf a p)
    (hlive : a.contains id = true) (hy : y ∈ (dismantle a [id]).2) : id ∉ below a y := by
  intro hmem
  obtain ⟨depth, level, hr⟩ := h.ranked
  have hle := hr.le_of_mem_dismantle h hy
  rcases mem_below.mp hmem with hchild | hscope
  · exact hid y hchild
  · have := hr.scope hscope hlive
    omega

/-- A node that is there is below one node at most. -/
theorem ForestBut.below_unique {loose : NodeId → Prop} (h : ForestBut a loose)
    (hlive : a.contains x = true) {z : NodeId} (hy : x ∈ below a y) (hz : x ∈ below a z) :
    y = z := by
  rcases mem_below.mp hy with hy | hy <;> rcases mem_below.mp hz with hz | hz
  · exact Option.some.inj ((h.parent_of_child hy).symm.trans (h.parent_of_child hz))
  · exact absurd hy (h.scope_not_child hz)
  · exact absurd hz (h.scope_not_child hy)
  · exact h.scope_owner hy hz hlive

theorem ForestBut.nodup_below {loose : NodeId → Prop} (h : ForestBut a loose)
    (hc : (childrenOf a y).Nodup) : (below a y).Nodup := by
  refine List.Nodup.append (Option.toList_nodup _) (List.nodup_reverse.mpr hc) fun x hx hx' => ?_
  exact h.scope_not_child (Option.mem_toList.mp hx) (List.mem_reverse.mp hx')

/-- **No node that is there comes off the list twice**, if no child is listed twice. -/
theorem nodup_popped (h : ForestBut a (· = id)) (hid : ∀ p, id ∉ childrenOf a p)
    (hlive : a.contains id = true) (hc : ∀ p, (childrenOf a p).Nodup) :
    (([id] ++ (dismantle a [id]).2.flatMap (below a)).filter a.contains).Nodup := by
  have hremoved := (releases_dismantle a [id]).nodup
  rw [List.singleton_append, List.filter_cons_of_pos hlive, List.filter_flatMap]
  refine List.nodup_cons.mpr ⟨fun hmem => ?_, List.nodup_flatMap.mpr ⟨fun y _ => ?_, ?_⟩⟩
  · obtain ⟨y, hy, hidy⟩ := List.mem_flatMap.mp hmem
    exact not_mem_below h hid hlive hy (List.mem_of_mem_filter hidy)
  · exact (h.nodup_below (hc y)).filter _
  · refine hremoved.imp fun hne x hy hz => hne ?_
    exact h.below_unique (List.mem_filter.mp hy).2 (List.mem_of_mem_filter hy)
      (List.mem_of_mem_filter hz)

end Once

/-- The removal of a node goes through its worklist. -/
structure Tree.TakesApart (t : Tree) (n : NodeId) (passed : List Worklist) : Prop where
  /-- It ends with nothing on the list and everything taken out. -/
  trail : Trail Worklist.pop ⟨(t.unlink n).nodes, [n], []⟩ passed
    ⟨(t.cut n).nodes, [], t.removed n⟩
  /-- Every node that the removal takes away comes off the list once. -/
  once : ∀ y, t.contains y = true → ¬ (t.remove n).tree.contains y = true →
    (passed.filterMap Worklist.top?).count y = 1

theorem Tree.exists_takesApart {n : NodeId} (h : ForestBut t.nodes (· = n))
    (hn : t.contains n = true) (hc : ∀ p, (childrenOf t.nodes p).Nodup) :
    ∃ passed, t.TakesApart n passed := by
  obtain ⟨passed, htrail, hperm⟩ := exists_trail_pop (t.unlink n).nodes [n] []
  obtain ⟨hbut, hchild⟩ := forestBut_unlink h
  have hlisted : ∀ p, (childrenOf (t.unlink n).nodes p).Nodup := fun p => by
    rw [childrenOf_unlink h]
    exact (hc p).filter _
  have honce := nodup_popped hbut hchild ((contains_unlink t n n).trans hn) hlisted
  refine ⟨passed, htrail, fun y hy hgone => ?_⟩
  have hlive : (t.unlink n).nodes.contains y = true := (contains_unlink t n y).trans hy
  rw [hperm.count_eq, ← List.count_filter hlive]
  refine List.count_eq_one_of_mem honce (List.mem_filter.mpr ⟨?_, hlive⟩)
  -- what goes is the node itself, or below one that goes
  rcases mem_of_mem_dismantle ((mem_removed_iff hn).mpr ⟨hy, hgone⟩) with hmem | ⟨z, hz, hyz⟩
  · exact List.mem_append_left _ hmem
  · exact List.mem_append_right _ (List.mem_flatMap.mpr ⟨z, hz, mem_below.mpr hyz⟩)

/-! ## Runs -/

/-- A call lists no child twice. -/
theorem Relink.nodup_children {c : Call} {made : Option NodeId} {gone : List NodeId}
    (h : Relink t c u made gone) (hf : Forest t.nodes) (hs : t.nodes.Sound)
    (hold : t.nodes.cells.length < UInt32.size) (hlt : u.nodes.cells.length < UInt32.size)
    (hc : ∀ p, (childrenOf t.nodes p).Nodup) (p : NodeId) : (childrenOf u.nodes p).Nodup := by
  by_cases hp : u.nodes.contains p = true
  case neg =>
    rw [childrenOf_of_gone hp]
    exact List.nodup_nil
  rw [h.childrenOf_eq hf hs hlt hp]
  refine List.Nodup.append ((hc p).filter _) ?_ fun x hx hx' => ?_
  · cases made with
    | none => exact List.nodup_nil
    | some y =>
      cases hy : Birth.childOf? p ⟨c, y⟩ with
      | none => simp [hy]
      | some x => simp [hy]
  · -- a child that is made was not there before
    obtain ⟨b, hb, hbx⟩ := List.mem_filterMap.mp hx'
    obtain ⟨y, hy, rfl⟩ := List.mem_map.mp hb
    obtain ⟨-, rfl⟩ := Birth.childOf?_eq_some hbx
    have hnew := h.eq_nextId (Option.mem_toList.mp hy)
    have hlive := contains_of_parentOf (hf.parent_of_child (List.mem_of_mem_filter hx))
    rw [hnew, Arena.contains, Arena.get?_nextId hs hold] at hlive
    cases hlive

/-- The loops over the links of a tree end. -/
structure LoopsEnd (t : Tree) : Prop where
  /-- Every lookup. -/
  lookup : ∀ x c, ∃ passed last, t.LooksUp c x passed last
  /-- The removal of every node. -/
  removal : ∀ n, t.contains n = true → ∃ passed, t.TakesApart n passed
  /-- The removal of an implicit scope that its node lets go of. -/
  clearing : ∀ m i, scopeOf t.nodes m = some i → t.contains i = true →
    ∃ passed, (t.dropScope m).TakesApart i passed

namespace Run

variable {allowed : Tree → Call → Prop} {log : List Exchange} {globalId : String} {value : Value}
  {registry : Registry}

/-- **No child is listed twice** after a run. -/
theorem nodup_children (h : Run allowed (.new globalId value registry) log t)
    (hlt : t.nodes.cells.length < UInt32.size) (hl : t.nodes.Lasting) (p : NodeId) :
    (childrenOf t.nodes p).Nodup := by
  refine h.keeps (P := fun _ t => t.nodes.Lasting → ∀ p, (childrenOf t.nodes p).Nodup) hlt
    (fun _ p => ?_) (fun {log t} c hrun _ hlt ih hl => ?_) hl p
  · rw [childrenOf_of_gone fun hp => ?_]
    · exact List.nodup_nil
    · rw [Tree.new, Arena.contains, get?_empty] at hp
      cases hp
  · have hold := (t.grows_call c).cells_lt hlt
    have hl' := (t.grows_call c).lasting (Nat.le_of_lt hold) hl
    have hs := (hrun.coherent hold).sound
    exact (Tree.relink_call hs c hlt).nodup_children (hrun.forest hold hl').1 hs hold hlt (ih hl')

/-- **The loops over the links end** after every run in which no cell is vacated so often that its
generations begin again. A lookup visits no node twice, so that it turns at most once at each node
that is there. A removal takes every node that it takes away off its list exactly once, also where
links to scopes that are gone put these on the list. -/
theorem loopsEnd (h : Run allowed (.new globalId value registry) log t)
    (hlt : t.nodes.cells.length < UInt32.size) (hl : t.nodes.Lasting) : LoopsEnd t := by
  have hf := (h.forest hlt hl).1
  have hc := h.nodup_children hlt hl
  constructor
  case lookup => exact fun x c => Tree.exists_looksUp hf c x
  case removal => exact fun n hn => Tree.exists_takesApart (hf.mono nofun) hn hc
  case clearing =>
    intro m i hi hlive
    refine Tree.exists_takesApart (forestBut_dropScope hf hi) ((contains_dropScope ..).trans hlive)
      fun p => ?_
    rw [childrenOf_dropScope]
    exact hc p

/-- For instance a lookup that goes up from an implicit scope, on to the root and down to another
implicit scope, and the removal of the node whose scope the first one is. -/
theorem loopsEnd_of_siblings :
    let t := ((Tree.new "global" .null .empty).calls siblings).2
    t.nodes.cells.length < UInt32.size ∧ t.nodes.Lasting ∧
      t.LooksUp "b" ⟨4, 0⟩ [⟨4, 0⟩, ⟨3, 0⟩, ⟨0, 0⟩] ⟨5, 0⟩ ∧
      ∃ passed, t.TakesApart ⟨2, 0⟩ passed ∧ (passed.filterMap Worklist.top?).count ⟨4, 0⟩ = 1 := by
  have hrun := @Run.of_calls AnyCall (Tree.new "global" .null .empty) siblings fun _ _ _ => trivial
  have hends := loopsEnd hrun cells_lt_siblings lasting_siblings
  obtain ⟨passed, last, hlookup⟩ := hends.lookup ⟨4, 0⟩ "b"
  obtain ⟨rfl, rfl⟩ := hlookup.trail.unique
    (.further (by cbv) (.further (by cbv) (.further (by cbv) (.here (by cbv)))))
  obtain ⟨popped, htakes⟩ := hends.removal ⟨2, 0⟩ (by cbv)
  exact ⟨cells_lt_siblings, lasting_siblings, hlookup, popped, htakes,
    htakes.once ⟨4, 0⟩ (by cbv) (ne_true_of_eq_false (by cbv))⟩

end Run

end DataBinding.Scope
