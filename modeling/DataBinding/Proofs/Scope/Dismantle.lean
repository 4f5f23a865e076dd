import DataBinding.Proofs.Scope.Forest

/-!
# What taking a subtree out leaves

* `releases_dismantle`: the nodes are taken out one after another.
* `Releases.get?`: exactly the identities taken out lead to nothing any more.
* `Releases.nodup`, `Releases.free`, `Releases.vacations`: each goes once, and vacates its cell.
* `mem_dismantle_of_mem`, `mem_dismantle_of_below`: the nodes asked for go, and with each node its
  children and its implicit scope.
* `mem_of_mem_dismantle`, `of_mem_dismantle`: no other node goes.
* `ForestBut.dismantle`: what is left is a forest.
-/

namespace DataBinding.Scope

variable {a : Arena Node}

/-- The node is a child or the implicit scope of the other one. -/
def Below (nodes : Arena Node) (x y : NodeId) : Prop :=
  x ∈ childrenOf nodes y ∨ scopeOf nodes y = some x

theorem below_iff_of_get? {nodes : Arena Node} {x y : NodeId} {n : Node}
    (h : nodes.get? y = some n) : Below nodes x y ↔ x ∈ n.children ∨ n.implicit = some x := by
  rw [Below, childrenOf_of_get? h, scopeOf_of_get? h]

theorem below_congr {b : Arena Node} {x y : NodeId} (h : b.get? y = a.get? y) :
    Below b x y ↔ Below a x y := by
  rw [Below, Below, childrenOf, childrenOf, scopeOf, scopeOf, h]

/-- What goes does not depend on what else a node holds. -/
theorem dismantle_map (a : Arena Node) (ids : List NodeId) {f : Node → Node}
    (hf : ∀ n, (f n).implicit = n.implicit ∧ (f n).children = n.children) :
    dismantle (a.map f) ids = ((dismantle a ids).1.map f, (dismantle a ids).2) := by
  fun_induction dismantle a ids with
  | case1 a => simp [dismantle]
  | case2 a id rest hr ih =>
    have hr' : (a.map f).release? id = none := by rw [Arena.release?_map, hr, Option.map_none]
    rw [dismantle]
    split
    · exact ih
    · rename_i heq
      rw [hr'] at heq
      cases heq
  | case3 a id rest n a' hr b removed heq ih =>
    have hr' : (a.map f).release? id = some (f n, a'.map f) := by
      rw [Arena.release?_map, hr, Option.map_some]
    rw [dismantle]
    split
    · rename_i hnone
      rw [hr'] at hnone
      cases hnone
    · rename_i hsome
      rw [hr'] at hsome
      obtain ⟨rfl, rfl⟩ := Prod.mk.inj (Option.some.inj hsome)
      rw [(hf n).1, (hf n).2, ih, heq]

/-! ## Nodes taken out one after another -/

/-- Nodes are taken out of an arena in turn: the arena before, their identities, the arena after. -/
inductive Releases : Arena Node → List NodeId → Arena Node → Prop
  | nil (a : Arena Node) : Releases a [] a
  | cons {a a' b : Arena Node} {id : NodeId} {n : Node} {ids : List NodeId}
    (hr : a.release? id = some (n, a')) (h : Releases a' ids b) : Releases a (id :: ids) b

theorem releases_dismantle (a : Arena Node) (ids : List NodeId) :
    Releases a (dismantle a ids).2 (dismantle a ids).1 := by
  fun_induction dismantle a ids with
  | case1 a => exact .nil a
  | case2 a id rest hr ih => exact ih
  | case3 a id rest n a' hr b removed heq ih =>
    rw [heq] at ih
    exact .cons hr ih

theorem releases_of_dismantle {b : Arena Node} {ids removed : List NodeId}
    (h : dismantle a ids = (b, removed)) : Releases a removed b := by
  have hreleases := releases_dismantle a ids
  rwa [h] at hreleases

namespace Releases

variable {b : Arena Node} {ids : List NodeId} {x : NodeId}

theorem contains_of_mem (h : Releases a ids b) (hx : x ∈ ids) : a.contains x = true := by
  induction h with
  | nil a => cases hx
  | cons hr _ ih =>
    rcases List.mem_cons.mp hx with rfl | hx
    · exact Arena.contains_of_get? (Arena.release?_eq_some_iff.mp hr).1
    · obtain ⟨y, hy⟩ := Arena.contains_iff.mp (ih hx)
      rw [Arena.get?_release? hr] at hy
      split at hy
      · cases hy
      · exact Arena.contains_of_get? hy

/-- Exactly the identities taken out lead to nothing any more. -/
theorem get? (h : Releases a ids b) (x : NodeId) :
    b.get? x = if x ∈ ids then none else a.get? x := by
  induction h with
  | nil a => simp
  | @cons a a' b id n ids hr _ ih =>
    simp only [List.mem_cons]
    rw [ih, Arena.get?_release? hr]
    by_cases hx : x = id
    · simp [hx]
    · simp [hx]

/-- A node that was taken out before is not taken out again. -/
theorem not_mem {a' : Arena Node} {n : Node} (h : Releases a' ids b)
    (hr : a.release? x = some (n, a')) : x ∉ ids := by
  intro hmem
  have hlive := h.contains_of_mem hmem
  rw [Arena.contains, Arena.get?_release? hr, if_pos rfl] at hlive
  cases hlive

/-- No node is taken out twice. -/
theorem nodup (h : Releases a ids b) : ids.Nodup := by
  induction h with
  | nil a => exact List.nodup_nil
  | cons hr h ih => exact List.nodup_cons.mpr ⟨h.not_mem hr, ih⟩

/-- The cells of the nodes come to the vacated ones, that of the node taken out last first. -/
theorem free (h : Releases a ids b) : b.free = (ids.map NodeId.index).reverse ++ a.free := by
  induction h with
  | nil a => rfl
  | cons hr _ ih =>
    obtain ⟨-, rfl⟩ := Arena.release?_eq_some_iff.mp hr
    rw [ih, List.map_cons, List.reverse_cons, List.append_assoc]
    rfl

/-- The cell of every node taken out is vacated once more. -/
theorem vacations (h : Releases a ids b) (i : UInt32) :
    b.vacations i = a.vacations i + (ids.map NodeId.index).count i := by
  induction h with
  | nil a => rfl
  | cons hr _ ih =>
    rw [ih, Arena.vacations_release? hr, List.map_cons, List.count_cons]
    simp only [beq_iff_eq]
    omega

theorem sound (h : Releases a ids b) (hsound : a.Sound) : b.Sound := by
  induction h with
  | nil a => exact hsound
  | cons hr _ ih => exact ih (hsound.release? hr)

theorem grows (h : Releases a ids b) : a.Grows b := by
  induction h with
  | nil a => exact .refl a
  | cons hr _ ih => exact (Arena.grows_release? hr).trans ih

theorem stale (h : Releases a ids b) (hx : x ∈ ids) : b.Stale x := by
  induction h with
  | nil a => cases hx
  | cons hr h ih =>
    rcases List.mem_cons.mp hx with rfl | hx
    · exact h.grows.stale (Arena.stale_release? hr)
    · exact ih hx

end Releases

/-! ## The nodes that go -/

/-- A node that goes was there. -/
theorem contains_of_mem_dismantle {ids : List NodeId} {x : NodeId}
    (h : x ∈ (dismantle a ids).2) : a.contains x = true :=
  (releases_dismantle a ids).contains_of_mem h

theorem get?_dismantle (a : Arena Node) (ids : List NodeId) (x : NodeId) :
    (dismantle a ids).1.get? x = if x ∈ (dismantle a ids).2 then none else a.get? x :=
  (releases_dismantle a ids).get? x

/-- The nodes asked for go. -/
theorem mem_dismantle_of_mem {ids : List NodeId} {x : NodeId} (hx : x ∈ ids)
    (hlive : a.contains x = true) : x ∈ (dismantle a ids).2 := by
  fun_induction dismantle a ids with
  | case1 a => exact absurd hx List.not_mem_nil
  | case2 a id rest hr ih =>
    rcases List.mem_cons.mp hx with rfl | hx
    · obtain ⟨y, hy⟩ := Arena.contains_iff.mp hlive
      unfold Arena.release? at hr
      simp [hy] at hr
    · exact ih hx hlive
  | case3 a id rest n a' hr b removed heq ih =>
    rw [heq] at ih
    by_cases he : x = id
    · exact List.mem_cons.mpr (Or.inl he)
    · refine List.mem_cons_of_mem _ (ih ?_ ?_)
      · exact List.mem_append_right _ ((List.mem_cons.mp hx).resolve_left he)
      · rw [Arena.contains, Arena.get?_release? hr, if_neg he]
        exact hlive

/-- With a node its children and its implicit scope go. -/
theorem mem_dismantle_of_below {ids : List NodeId} {x y : NodeId} (hy : y ∈ (dismantle a ids).2)
    (hxy : Below a x y) (hlive : a.contains x = true) : x ∈ (dismantle a ids).2 := by
  fun_induction dismantle a ids with
  | case1 a => exact absurd hy List.not_mem_nil
  | case2 a id rest hr ih => exact ih hy hxy hlive
  | case3 a id rest n a' hr b removed heq ih =>
    by_cases he : x = id
    · exact List.mem_cons.mpr (Or.inl he)
    have hlive' : a'.contains x = true := by
      rw [Arena.contains, Arena.get?_release? hr, if_neg he]
      exact hlive
    rw [heq] at ih
    refine List.mem_cons_of_mem _ ?_
    by_cases hyid : y = id
    · -- the children and the scope of the node itself come next
      subst hyid
      have hn := (Arena.release?_eq_some_iff.mp hr).1
      have hmem : x ∈ n.implicit.toList ++ n.children.reverse ++ rest := by
        rcases (below_iff_of_get? hn).mp hxy with hc | hs
        · simp [hc]
        · simp [hs]
      have := mem_dismantle_of_mem hmem hlive'
      rwa [heq] at this
    · have hback : a'.get? y = a.get? y := by rw [Arena.get?_release? hr, if_neg hyid]
      exact ih ((List.mem_cons.mp hy).resolve_left hyid) ((below_congr hback).mpr hxy) hlive'

/-- No other node goes. -/
theorem mem_of_mem_dismantle {ids : List NodeId} {x : NodeId} (h : x ∈ (dismantle a ids).2) :
    x ∈ ids ∨ ∃ y ∈ (dismantle a ids).2, Below a x y := by
  fun_induction dismantle a ids with
  | case1 a => exact absurd h List.not_mem_nil
  | case2 a id rest hr ih =>
    rcases ih h with hx | hx
    · exact Or.inl (List.mem_cons_of_mem _ hx)
    · exact Or.inr hx
  | case3 a id rest n a' hr b removed heq ih =>
    rcases List.mem_cons.mp h with rfl | h
    · exact Or.inl List.mem_cons_self
    · have hn := (Arena.release?_eq_some_iff.mp hr).1
      rw [heq] at ih
      rcases ih h with hx | ⟨y, hy, hxy⟩
      · rcases List.mem_append.mp hx with hx | hx
        · refine Or.inr ⟨id, List.mem_cons_self, (below_iff_of_get? hn).mpr ?_⟩
          simpa [or_comm] using hx
        · exact Or.inl (List.mem_cons_of_mem _ hx)
      · have hyid : y ≠ id := fun he => (releases_of_dismantle heq).not_mem hr (he ▸ hy)
        have hback : a'.get? y = a.get? y := by rw [Arena.get?_release? hr, if_neg hyid]
        exact Or.inr ⟨y, List.mem_cons_of_mem _ hy, (below_congr hback).mp hxy⟩

/-- What holds of the nodes asked for, and goes on to what is below a node, holds of all nodes that
go. -/
theorem of_mem_dismantle {P : NodeId → Prop} {ids : List NodeId}
    (hids : ∀ x ∈ ids, a.contains x = true → P x)
    (hbelow : ∀ {x y}, P y → Below a x y → a.contains x = true → P x) {x : NodeId}
    (hx : x ∈ (dismantle a ids).2) : P x := by
  fun_induction dismantle a ids with
  | case1 a => exact absurd hx List.not_mem_nil
  | case2 a id rest hr ih => exact ih (fun y hy => hids y (List.mem_cons_of_mem _ hy)) hbelow hx
  | case3 a id rest n a' hr b removed heq ih =>
    have hn := (Arena.release?_eq_some_iff.mp hr).1
    have hid : P id := hids id List.mem_cons_self (Arena.contains_of_get? hn)
    have hback : ∀ {y}, a'.contains y = true → a'.get? y = a.get? y := fun {y} hy => by
      rw [Arena.contains, Arena.get?_release? hr] at hy
      rw [Arena.get?_release? hr]
      split at hy
      · cases hy
      · rename_i hne
        rw [if_neg hne]
    have hlive : ∀ {y}, a'.contains y = true → a.contains y = true := fun hy => by
      rwa [Arena.contains, hback hy] at hy
    rw [heq] at ih
    rcases List.mem_cons.mp hx with rfl | hx
    · exact hid
    refine ih (fun y hy hylive => ?_) (fun {y z} hz hyz hylive => ?_) hx
    · rcases List.mem_append.mp hy with hy | hy
      · refine hbelow hid ((below_iff_of_get? hn).mpr ?_) (hlive hylive)
        simpa [or_comm] using hy
      · exact hids y (List.mem_cons_of_mem _ hy) (hlive hylive)
    · have hzlive : a'.contains z = true := hyz.elim
        (fun hc => contains_of_mem_childrenOf hc) contains_of_scopeOf
      exact hbelow hz ((below_congr (hback hzlive)).mp hyz) (hlive hylive)

/-- No cell is vacated for two nodes. -/
theorem nodup_index_dismantle (a : Arena Node) (ids : List NodeId) :
    ((dismantle a ids).2.map NodeId.index).Nodup := by
  refine (releases_dismantle a ids).nodup.map_on fun x hx y hy he => ?_
  obtain ⟨m, hm⟩ := Arena.contains_iff.mp (contains_of_mem_dismantle hx)
  obtain ⟨n, hn⟩ := Arena.contains_iff.mp (contains_of_mem_dismantle hy)
  exact Arena.eq_of_index_eq hm hn (congrArg UInt32.toNat he)

/-! ## What is left -/

section Left

variable {id : NodeId}

theorem contains_dismantle_iff {ids : List NodeId} {x : NodeId} :
    (dismantle a ids).1.contains x = true ↔ x ∉ (dismantle a ids).2 ∧ a.contains x = true := by
  rw [Arena.contains, get?_dismantle]
  by_cases hx : x ∈ (dismantle a ids).2
  · simp [hx]
  · simp [hx, Arena.contains]

theorem parentOf_dismantle {ids : List NodeId} {x p : NodeId} :
    parentOf (dismantle a ids).1 x = some p ↔
      x ∉ (dismantle a ids).2 ∧ parentOf a x = some p := by
  rw [parentOf, get?_dismantle]
  by_cases hx : x ∈ (dismantle a ids).2
  · simp [hx]
  · simp [hx, parentOf]

theorem scopeOf_dismantle {ids : List NodeId} {x i : NodeId} :
    scopeOf (dismantle a ids).1 x = some i ↔
      x ∉ (dismantle a ids).2 ∧ scopeOf a x = some i := by
  rw [scopeOf, get?_dismantle]
  by_cases hx : x ∈ (dismantle a ids).2
  · simp [hx]
  · simp [hx, scopeOf]

theorem mem_childrenOf_dismantle {ids : List NodeId} {x p : NodeId} :
    x ∈ childrenOf (dismantle a ids).1 p ↔
      p ∉ (dismantle a ids).2 ∧ x ∈ childrenOf a p := by
  rw [childrenOf, get?_dismantle]
  by_cases hp : p ∈ (dismantle a ids).2
  · simp [hp]
  · simp [hp, childrenOf]

/-- The parent of a node that stays, stays. -/
theorem ForestBut.parent_stays (h : ForestBut a (· = id)) {x p : NodeId}
    (hx : x ∉ (dismantle a [id]).2) (hp : parentOf a x = some p) : p ∉ (dismantle a [id]).2 := by
  obtain ⟨depth, level, hr⟩ := h.ranked
  -- a scope goes up to its node, which has the same parent and a smaller level
  induction hl : level x using Nat.strong_induction_on generalizing x with
  | _ l ih =>
    intro hpR
    have hlive := contains_of_parentOf hp
    have hxid : x ≠ id := fun he => hx (mem_dismantle_of_mem (by simp [he]) hlive)
    rcases h.hangs hp hxid with hc | ⟨m, hm⟩
    · exact hx (mem_dismantle_of_below hpR (Or.inl hc) hlive)
    · have hmR : m ∉ (dismantle a [id]).2 := fun hmR =>
        hx (mem_dismantle_of_below hmR (Or.inr hm) hlive)
      have hmp : parentOf a m = some p := (h.scope_parent hm hlive).symm.trans hp
      exact ih (level m) (hl ▸ (hr.scope hm hlive).2) hmR hmp rfl hpR

/-- An implicit scope stays with its node, unless it is itself the node asked for. -/
theorem ForestBut.scope_stays (h : ForestBut a (· = id)) {m i : NodeId} (hi : i ≠ id)
    (hm : m ∉ (dismantle a [id]).2) (hs : scopeOf a m = some i) : i ∉ (dismantle a [id]).2 := by
  intro hiR
  rcases mem_of_mem_dismantle hiR with hmem | ⟨y, hy, hc | hs'⟩
  · exact hi (List.mem_singleton.mp hmem)
  · exact h.scope_not_child hs hc
  · exact hm (h.scope_owner hs hs' (contains_of_mem_dismantle hiR) ▸ hy)

/-- **What is left is a forest**, when the node asked for was struck off the list of its parent. -/
theorem ForestBut.dismantle (h : ForestBut a (· = id)) (hid : ∀ p, id ∉ childrenOf a p) :
    Forest (dismantle a [id]).1 where
  parent_live hp := by
    obtain ⟨hx, hp⟩ := parentOf_dismantle.mp hp
    exact contains_dismantle_iff.mpr ⟨h.parent_stays hx hp, h.parent_live hp⟩
  parent_of_child {p x} hx := by
    obtain ⟨hp, hx⟩ := mem_childrenOf_dismantle.mp hx
    have hxp := h.parent_of_child hx
    refine parentOf_dismantle.mpr ⟨fun hxR => ?_, hxp⟩
    rcases mem_of_mem_dismantle hxR with hmem | ⟨y, hy, hc | hs⟩
    · exact hid p (List.mem_singleton.mp hmem ▸ hx)
    · have hpy : p = y := Option.some.inj (hxp.symm.trans (h.parent_of_child hc))
      exact hp (hpy ▸ hy)
    · exact h.scope_not_child hs hx
  hangs {x p} hp _ := by
    obtain ⟨hx, hp⟩ := parentOf_dismantle.mp hp
    have hlive := contains_of_parentOf hp
    have hxid : x ≠ id := fun he => hx (mem_dismantle_of_mem (by simp [he]) hlive)
    rcases h.hangs hp hxid with hc | ⟨m, hm⟩
    · exact Or.inl (mem_childrenOf_dismantle.mpr ⟨h.parent_stays hx hp, hc⟩)
    · refine Or.inr ⟨m, scopeOf_dismantle.mpr ⟨fun hmR => ?_, hm⟩⟩
      exact hx (mem_dismantle_of_below hmR (Or.inr hm) hlive)
  scope_parent {m i} hm hi := by
    obtain ⟨hmR, hm⟩ := scopeOf_dismantle.mp hm
    obtain ⟨hiR, hi⟩ := contains_dismantle_iff.mp hi
    have := h.scope_parent hm hi
    rw [parentOf, parentOf, get?_dismantle, get?_dismantle, if_neg hmR, if_neg hiR]
    exact this
  scope_owner hm hm' hi :=
    h.scope_owner (scopeOf_dismantle.mp hm).2 (scopeOf_dismantle.mp hm').2
      (contains_dismantle_iff.mp hi).2
  scope_not_child hm hi :=
    h.scope_not_child (scopeOf_dismantle.mp hm).2 (mem_childrenOf_dismantle.mp hi).2
  ranked := by
    obtain ⟨depth, level, hr⟩ := h.ranked
    exact ⟨depth, level, fun hp => hr.parent (parentOf_dismantle.mp hp).2, fun hm hi =>
      hr.scope (scopeOf_dismantle.mp hm).2 (contains_dismantle_iff.mp hi).2⟩

end Left

end DataBinding.Scope
