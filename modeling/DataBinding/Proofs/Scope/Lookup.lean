import DataBinding.Proofs.Scope.Forest
import DataBinding.Proofs.Scope.Trail
import Mathlib.Data.Finite.Prod
import Mathlib.Data.Prod.Lex
import Mathlib.Logic.Relation
import Mathlib.Order.OrderDual

/-!
# How a lookup goes in a forest

Where the nodes form a forest a lookup ends (`Tree.exists_trail_pass`), so that lookup is a
recursion along the links (`Tree.lookup_induction`). This says what it sees past the implicit scopes
of a node (`Tree.owner?_scope_cases`).

* `Nested`: a node, its implicit scope, the implicit scope of that, and so on.
* `Severed`: one of these names a scope that is gone; a lookup ends there.
* `owner?_congr`: lookups agree in two trees that agree where they go.
* `owner?_dropScope`: what a node sees when another lets go of its implicit scope.
-/

namespace DataBinding

/-- There are as many identities as pairs of words. -/
instance : Finite NodeId :=
  Finite.of_injective (fun x : NodeId => (x.index.toFin, x.generation.toFin)) fun x y h => by
    obtain ⟨hi, hg⟩ := Prod.mk.inj h
    cases x
    cases y
    exact congrArg₂ NodeId.mk (UInt32.toFin_inj.mp hi) (UInt32.toFin_inj.mp hg)

namespace Scope

open OrderDual (toDual)

variable {t : Tree} {loose : NodeId → Prop}

namespace Tree

/-! ## Lookups end -/

/-- The place of a node in the order in which lookups go down. -/
def rank (depth level : NodeId → Nat) (x : NodeId) : Nat ×ₗ Natᵒᵈ :=
  toLex (depth x, toDual (level x))

theorem rank_lt_of_next {depth level : NodeId → Nat} (hr : Ranked t.nodes depth level)
    {x u : NodeId} {n : Node} (hn : t.node? x = some n) (hu : n.next = some u)
    (hlive : t.contains u = true) : rank depth level u < rank depth level x := by
  unfold Node.next at hu
  cases hi : n.implicit with
  | none =>
    rw [hi, Option.none_or] at hu
    exact Prod.Lex.toLex_lt_toLex.mpr (Or.inl (hr.parent ((parentOf_of_get? hn).trans hu)))
  | some i =>
    rw [hi, Option.some_or] at hu
    obtain rfl := Option.some.inj hu
    obtain ⟨hd, hl⟩ := hr.scope ((scopeOf_of_get? hn).trans hi) hlive
    exact Prod.Lex.toLex_lt_toLex.mpr (Or.inr ⟨hd, hl⟩)

/-- What holds of a node when it holds of where the lookup goes next, holds of every node. -/
theorem lookup_induction (h : ForestBut t.nodes loose) {P : NodeId → Prop}
    (gone : ∀ x, t.node? x = none → P x)
    (node : ∀ x n, t.node? x = some n → (∀ u, n.next = some u → P u) → P x) (x : NodeId) : P x := by
  obtain ⟨depth, level, hr⟩ := h.ranked
  -- the rank goes down from node to node, and there are finitely many identities
  let lower (y x : NodeId) : Prop := rank depth level y < rank depth level x
  have : IsTrans NodeId lower := ⟨fun _ _ _ => lt_trans⟩
  have : Std.Irrefl lower := ⟨fun _ => lt_irrefl _⟩
  induction x using (Finite.wellFounded_of_trans_of_irrefl lower).induction with
  | _ x ih =>
    cases hn : t.node? x with
    | none => exact gone x hn
    | some n =>
      refine node x n hn fun u hu => ?_
      cases hnu : t.node? u with
      | none => exact gone u hnu
      | some m => exact ih u (rank_lt_of_next hr hn hu (Arena.contains_of_get? hnu))

/-- **A lookup ends**, and finds the context if it ends at a node that holds it. -/
theorem exists_trail_pass (h : ForestBut t.nodes loose) (c : String) (x : NodeId) :
    ∃ passed last, Trail (t.pass c) x passed last := by
  induction x using lookup_induction h with
  | gone x hx => exact ⟨[], x, .here (pass_of_gone hx)⟩
  | node x n hn ih =>
    cases hu : t.pass c x with
    | none => exact ⟨[], x, .here hu⟩
    | some u =>
      have hnext : n.next = some u := by
        rw [pass_of_node? hn] at hu
        split at hu
        · cases hu
        · exact hu
      obtain ⟨passed, last, htrail⟩ := ih u hnext
      exact ⟨x :: passed, last, .further hu htrail⟩

theorem lookup_ends (h : ForestBut t.nodes loose) (x : NodeId) (c : String) :
    (t.lookup x c).ends = true := by
  by_cases hc : c = t.globalId
  · rw [hc, lookup_globalId, Lookup.ends]
  · obtain ⟨passed, last, htrail⟩ := exists_trail_pass h c x
    rw [lookup_of_trail hc htrail, arrival]
    split <;> rfl

end Tree

/-! ## Past the implicit scopes -/

/-- The node itself, its implicit scope, the implicit scope of that, and so on. -/
def Nested (nodes : Arena Node) : NodeId → NodeId → Prop :=
  Relation.ReflTransGen fun m i => scopeOf nodes m = some i ∧ nodes.contains i = true

/-- The chain of implicit scopes ends at one that is gone. -/
def Severed (nodes : Arena Node) (m : NodeId) : Prop :=
  ∃ i d, Nested nodes m i ∧ scopeOf nodes i = some d ∧ ¬ nodes.contains d = true

section Chain

variable {nodes : Arena Node} {m i : NodeId}

theorem nested_iff_of_scope (hs : scopeOf nodes m = some i) (hi : nodes.contains i = true)
    {x : NodeId} : Nested nodes m x ↔ x = m ∨ Nested nodes i x := by
  constructor
  · intro h
    rcases Relation.ReflTransGen.cases_head h with rfl | ⟨j, ⟨hj, -⟩, hx⟩
    · exact Or.inl rfl
    · obtain rfl := Option.some.inj (hs.symm.trans hj)
      exact Or.inr hx
  · rintro (rfl | h)
    · exact .refl
    · exact .head ⟨hs, hi⟩ h

theorem nested_iff_of_no_scope (hs : ∀ i, scopeOf nodes m = some i → ¬ nodes.contains i = true)
    {x : NodeId} : Nested nodes m x ↔ x = m := by
  constructor
  · intro h
    rcases Relation.ReflTransGen.cases_head h with rfl | ⟨j, ⟨hj, hlive⟩, -⟩
    · rfl
    · exact absurd hlive (hs j hj)
  · rintro rfl
    exact .refl

theorem severed_iff_of_scope (hs : scopeOf nodes m = some i) (hi : nodes.contains i = true) :
    Severed nodes m ↔ Severed nodes i := by
  constructor
  · rintro ⟨x, d, hx, hd, hgone⟩
    rcases (nested_iff_of_scope hs hi).mp hx with rfl | hx
    · obtain rfl := Option.some.inj (hs.symm.trans hd)
      exact absurd hi hgone
    · exact ⟨x, d, hx, hd, hgone⟩
  · rintro ⟨x, d, hx, hd, hgone⟩
    exact ⟨x, d, (nested_iff_of_scope hs hi).mpr (Or.inr hx), hd, hgone⟩

theorem not_severed_of_no_scope (hs : scopeOf nodes m = none) : ¬ Severed nodes m := by
  rintro ⟨x, d, hx, hd, -⟩
  rw [(nested_iff_of_no_scope (by simp [hs])).mp hx, hs] at hd
  cases hd

/-- Nothing is severed where every implicit scope is there. -/
theorem not_severed (h : ∀ m i, scopeOf nodes m = some i → nodes.contains i = true) (m : NodeId) :
    ¬ Severed nodes m := by
  rintro ⟨x, d, -, hd, hgone⟩
  exact hgone (h x d hd)

end Chain

namespace Tree

/-- **A lookup from a node** ends in its chain of implicit scopes, or finds nothing if the chain is
severed, or goes on to the parent of the node. -/
theorem owner?_scope_cases (h : ForestBut t.nodes loose) {c : String} (hc : c ≠ t.globalId)
    (m : NodeId) : ∀ n, t.node? m = some n →
      (∃ i, Nested t.nodes m i ∧ t.holds c i = true ∧ t.owner? m c = some (.node i)) ∨
      ((∀ i, Nested t.nodes m i → ¬ t.holds c i = true) ∧
        (Severed t.nodes m ∧ t.owner? m c = none ∨
          ¬ Severed t.nodes m ∧ t.owner? m c = n.parent.bind (t.owner? · c))) := by
  induction m using lookup_induction h with
  | gone x hx =>
    intro n hn
    rw [hx] at hn
    cases hn
  | node x nx hnx ih =>
    intro n hn
    obtain rfl := Option.some.inj (hnx.symm.trans hn)
    have hown := owner?_of_node? hc hnx
    by_cases hx : t.holds c x = true
    · rw [if_pos hx] at hown
      exact Or.inl ⟨x, .refl, hx, hown⟩
    rw [if_neg hx] at hown
    have hsc : scopeOf t.nodes x = nx.implicit := scopeOf_of_get? hnx
    cases hi : nx.implicit with
    | none =>
      right
      rw [hi] at hsc
      have hnext : nx.next = nx.parent := by rw [Node.next, hi, Option.none_or]
      rw [hnext] at hown
      refine ⟨fun i hxi => ?_, Or.inr ⟨not_severed_of_no_scope hsc, hown⟩⟩
      rw [(nested_iff_of_no_scope (by simp [hsc])).mp hxi]
      exact hx
    | some i =>
      rw [hi] at hsc
      have hnext : nx.next = some i := by rw [Node.next, hi, Option.some_or]
      rw [hnext, Option.bind_some] at hown
      cases hni : t.node? i with
      | none =>
        -- the scope is gone, and the lookup goes there and ends
        right
        have hgone : ¬ t.nodes.contains i = true := by
          rw [Arena.contains, ← node?_eq, hni]
          exact Bool.false_ne_true
        have hno : ∀ j, scopeOf t.nodes x = some j → ¬ t.nodes.contains j = true := by
          intro j hj
          obtain rfl := Option.some.inj (hsc.symm.trans hj)
          exact hgone
        refine ⟨fun j hj => ?_, Or.inl ⟨⟨x, i, .refl, hsc, hgone⟩, ?_⟩⟩
        · rw [(nested_iff_of_no_scope hno).mp hj]
          exact hx
        · rw [hown, owner?_of_gone hc hni]
      | some ni =>
        -- the scope is there and has the parent of the node
        have hlive : t.nodes.contains i = true := Arena.contains_of_get? hni
        have hpar : ni.parent = nx.parent := by
          rw [← parentOf_of_get? hni, ← parentOf_of_get? hnx]
          exact h.scope_parent hsc hlive
        rw [severed_iff_of_scope hsc hlive, hown, ← hpar]
        rcases ih i hnext ni hni with ⟨j, hj, hheld, he⟩ | ⟨hno, hrest⟩
        · exact Or.inl ⟨j, (nested_iff_of_scope hsc hlive).mpr (Or.inr hj), hheld, he⟩
        · refine Or.inr ⟨fun j hj => ?_, hrest⟩
          rcases (nested_iff_of_scope hsc hlive).mp hj with rfl | hj
          · exact hx
          · exact hno j hj

/-! ## Lookups in two trees -/

theorem pass_of_sameLinks {u : Tree} (h : SameLinks t.nodes u.nodes) {c : String} {x : NodeId}
    (hholds : u.holds c x = t.holds c x) : u.pass c x = t.pass c x := by
  rw [pass, pass, hholds]
  cases hn : t.node? x with
  | none =>
    have hgone : u.node? x = none := by
      refine Arena.get?_of_not_contains ?_
      rw [h.contains, Arena.contains, ← node?_eq, hn]
      exact Bool.false_ne_true
    rw [hgone]
  | some n =>
    obtain ⟨n', hn'⟩ := Arena.contains_iff.mp ((h.contains x).trans (Arena.contains_of_get? hn))
    have hparent := h.parent x
    have hscope := h.scope x
    rw [parentOf_of_get? hn', parentOf_of_get? hn] at hparent
    rw [scopeOf_of_get? hn', scopeOf_of_get? hn] at hscope
    rw [node?_eq, hn', Option.bind_some, Option.bind_some, Node.next, Node.next, hparent, hscope]

/-- Lookups agree in two trees with the same links, if the same nodes hold the context. -/
theorem lookup_of_sameLinks {u : Tree} (h : SameLinks t.nodes u.nodes)
    (hid : u.globalId = t.globalId) {c : String} (hholds : ∀ x, u.holds c x = t.holds c x)
    (x : NodeId) : u.lookup x c = t.lookup x c :=
  lookup_of_pass_eq hid (fun x => pass_of_sameLinks h (hholds x)) hholds x

theorem owner?_of_sameLinks {u : Tree} (h : SameLinks t.nodes u.nodes)
    (hid : u.globalId = t.globalId) {c : String} (hholds : ∀ x, u.holds c x = t.holds c x)
    (x : NodeId) : u.owner? x c = t.owner? x c := by
  rw [owner?, owner?, lookup_of_sameLinks h hid hholds]

/-- Lookups agree in two trees that agree on the nodes where they go. -/
theorem owner?_congr {u : Tree} (ht : ForestBut t.nodes loose) (hid : u.globalId = t.globalId)
    {P : NodeId → Prop} {c : String}
    (hP : ∀ x, P x → ∃ n n', t.node? x = some n ∧ u.node? x = some n' ∧ n'.next = n.next ∧
      u.holds c x = t.holds c x ∧ ∀ y, n.next = some y → P y) {x : NodeId} (hx : P x) :
    u.owner? x c = t.owner? x c := by
  by_cases hc : c = t.globalId
  · rw [hc, owner?_globalId, ← hid, owner?_globalId]
  have hc' : c ≠ u.globalId := hid ▸ hc
  induction x using lookup_induction ht with
  | gone x hn =>
    obtain ⟨n, -, hn', -⟩ := hP x hx
    rw [hn] at hn'
    cases hn'
  | node x n hn ih =>
    obtain ⟨n₁, n', hn₁, hn', hnext, hholds, hon⟩ := hP x hx
    obtain rfl := Option.some.inj (hn.symm.trans hn₁)
    rw [owner?_of_node? hc hn, owner?_of_node? hc' hn', hholds, hnext]
    split
    · rfl
    · cases hy : n.next with
      | none => rfl
      | some y => exact ih y hy (hon y hy)

/-- Lookups agree from nodes that are closed under links, keep their links and hold what they
held. -/
theorem owner?_of_agree {u : Tree} (ht : ForestBut t.nodes loose) (hid : u.globalId = t.globalId)
    {P : NodeId → Prop} {c : String}
    (hlive : ∀ x, P x → t.nodes.contains x = true ∧ u.nodes.contains x = true)
    (hparent : ∀ x, P x → parentOf u.nodes x = parentOf t.nodes x ∧
      ∀ y, parentOf t.nodes x = some y → P y)
    (hscope : ∀ x, P x → scopeOf u.nodes x = scopeOf t.nodes x ∧
      ∀ y, scopeOf t.nodes x = some y → P y)
    (hholds : ∀ x, P x → u.holds c x = t.holds c x) {x : NodeId} (hx : P x) :
    u.owner? x c = t.owner? x c := by
  refine owner?_congr ht hid (fun x hx => ?_) hx
  obtain ⟨n, hn⟩ := Arena.contains_iff.mp (hlive x hx).1
  obtain ⟨n', hn'⟩ := Arena.contains_iff.mp (hlive x hx).2
  have hp := (hparent x hx).1
  have hs := (hscope x hx).1
  rw [parentOf_of_get? hn, parentOf_of_get? hn'] at hp
  rw [scopeOf_of_get? hn, scopeOf_of_get? hn'] at hs
  refine ⟨n, n', hn, hn', by rw [Node.next, Node.next, hp, hs], hholds x hx, fun y hy => ?_⟩
  rcases Option.or_eq_some_iff.mp hy with hi | ⟨-, hi⟩
  · exact (hscope x hx).2 y ((scopeOf_of_get? hn).trans hi)
  · exact (hparent x hx).2 y ((parentOf_of_get? hn).trans hi)

/-- A node lets go of its implicit scope. -/
def dropScope (t : Tree) (m : NodeId) : Tree :=
  t.modifyNode m fun n => { n with implicit := none }

theorem node?_dropScope (t : Tree) (m x : NodeId) :
    (t.dropScope m).node? x =
      if x = m then (t.node? m).map (fun n => { n with implicit := none }) else t.node? x :=
  Arena.get?_modify _ _ _ _

theorem holds_dropScope (t : Tree) (m : NodeId) (c : String) (x : NodeId) :
    (t.dropScope m).holds c x = t.holds c x := by
  rw [holds_eq, holds_eq, node?_dropScope]
  by_cases hx : x = m
  · rw [if_pos hx, hx, Option.map_map]
    rfl
  · rw [if_neg hx]

/-- When a node lets go of its implicit scope, a lookup finds what it found before, unless that was
in the chain of that scope. -/
theorem owner?_dropScope (h : ForestBut t.nodes loose) {m : NodeId} (hm : ¬ Severed t.nodes m)
    (x : NodeId) (c : String) :
    (t.dropScope m).owner? x c = t.owner? x c ∨
      ∃ i j, scopeOf t.nodes m = some i ∧ t.nodes.contains i = true ∧ Nested t.nodes i j ∧
        t.owner? x c = some (.node j) := by
  have hu : ForestBut (t.dropScope m).nodes fun x => loose x ∨ scopeOf t.nodes m = some x :=
    h.dropScope
  by_cases hc : c = t.globalId
  · rw [hc, owner?_globalId]
    exact Or.inl (owner?_globalId (t.dropScope m) x)
  have hc' : c ≠ (t.dropScope m).globalId := hc
  induction x using lookup_induction hu with
  | gone x hx =>
    have hx' : t.node? x = none := by
      rw [node?_dropScope] at hx
      split at hx
      · rename_i he
        exact he ▸ Option.map_eq_none_iff.mp hx
      · exact hx
    exact Or.inl ((owner?_of_gone hc' hx).trans (owner?_of_gone hc hx').symm)
  | node x n' hx ih =>
    have hown := owner?_of_node? hc' hx
    rw [holds_dropScope] at hown
    rw [node?_dropScope] at hx
    split at hx
    · -- the lookup goes on to the parent now, where it went through the scope before
      rename_i he
      subst he
      obtain ⟨n, hn, rfl⟩ := Option.map_eq_some_iff.mp hx
      have hnext : Node.next { n with implicit := none } = n.parent := rfl
      rw [hnext] at hown ih
      rcases owner?_scope_cases h hc x n hn with ⟨j, hj, hheld, he⟩ | ⟨hno, ⟨hsev, -⟩ | ⟨-, he⟩⟩
      · by_cases hx : t.holds c x = true
        · rw [if_pos hx] at hown
          rw [hown, owner?_of_node? hc hn, if_pos hx]
          exact Or.inl rfl
        · right
          rcases Relation.ReflTransGen.cases_head hj with rfl | ⟨i, ⟨hi, hlive⟩, hij⟩
          · exact absurd hheld hx
          · exact ⟨i, j, hi, hlive, hij, he⟩
      · exact absurd hsev hm
      · rw [if_neg (hno x .refl)] at hown
        rw [hown, he]
        cases hp : n.parent with
        | none => exact Or.inl rfl
        | some p => exact ih p hp
    · rw [hown, owner?_of_node? hc hx]
      split
      · exact Or.inl rfl
      · cases hy : n'.next with
        | none => exact Or.inl rfl
        | some y => exact ih y hy

end Tree

end Scope

end DataBinding
