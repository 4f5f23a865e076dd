import DataBinding.Proofs.Scope.Links
import Mathlib.Data.List.Permutation

/-!
# Lookups past the implicit scopes of a node

A context that neither a node nor one of its implicit scopes holds is looked up at the parent of the
node. There is one exception: the implicit scope was removed by its own identity, not through its
node. The node still names it then, the lookup goes there and ends, and what lies above the node is
out of sight until the link is cleared or another implicit scope is set.

* `Run.owner?_past_scopes`: the lookup goes on exactly if the chain of implicit scopes is not
  severed or there is nothing to find.
* `owner?_of_removed_scope`: a context that is out of sight.
-/

namespace DataBinding.Scope

variable {t : Tree}

/-- **Where a lookup goes past a node**: for a context held neither by the node nor by one of its
implicit scopes, to the parent, unless the chain of implicit scopes is severed; then it finds
nothing. -/
theorem Run.owner?_past_scopes {log : List Exchange} {globalId : String} {value : Value}
    {registry : Registry} (h : Run AnyCall (.new globalId value registry) log t)
    (hlt : t.nodes.cells.length < UInt32.size) (hl : t.nodes.Lasting) {m : NodeId}
    (hm : t.contains m = true) {c : String} (hc : c ≠ t.globalId)
    (hheld : ∀ i, Nested t.nodes m i → ¬ t.holds c i = true) :
    (t.owner? m c = (t.parent? m).bind (t.owner? · c) ↔
        ¬ Severed t.nodes m ∨ (t.parent? m).bind (t.owner? · c) = none) ∧
      (Severed t.nodes m → t.owner? m c = none) := by
  obtain ⟨n, hn⟩ := Option.isSome_iff_exists.mp hm
  have hp : t.parent? m = n.parent := by rw [Tree.parent?, hn, Option.bind_some]
  rw [hp]
  rcases Tree.owner?_scope_cases (h.forest hlt hl).1 hc m n hn with
    ⟨i, hi, hh, -⟩ | ⟨-, ⟨hsev, ho⟩ | ⟨hsev, ho⟩⟩
  · exact absurd hh (hheld i hi)
  · rw [ho]
    exact ⟨⟨fun he => Or.inr he.symm, fun he => (he.resolve_left fun hn => hn hsev).symm⟩,
      fun _ => rfl⟩
  · exact ⟨⟨fun _ => Or.inl hsev, fun _ => ho⟩, fun hs => absurd hs hsev⟩

/-! ## A scope removed by its identity -/

/-- A root that holds a context, and a child whose implicit scope was made and then removed by its
own identity. -/
def removedScope : List Exchange × Tree :=
  (Tree.new "global" .null .empty).calls
    [.addRoot, .addChild ⟨0, 0⟩, .set ⟨0, 0⟩ "a" (.bool true), .setImplicit ⟨1, 0⟩ "b" .null,
      .remove ⟨2, 0⟩]

theorem run_removedScope :
    Run AnyCall (.new "global" .null .empty) removedScope.1 removedScope.2 :=
  Run.of_calls fun _ _ _ => trivial

theorem ne_globalId_removedScope : "a" ≠ removedScope.2.globalId := by
  have hid : removedScope.2.globalId = "global" := by cbv
  rw [hid]
  decide

theorem scopeOf_removedScope : scopeOf removedScope.2.nodes ⟨1, 0⟩ = some ⟨2, 0⟩ := by
  cbv

theorem gone_removedScope : ¬ removedScope.2.nodes.contains ⟨2, 0⟩ = true := by
  have hgone : removedScope.2.nodes.contains ⟨2, 0⟩ = false := by cbv
  rw [hgone]
  exact Bool.false_ne_true

theorem not_holds_removedScope (i : NodeId) (hi : Nested removedScope.2.nodes ⟨1, 0⟩ i) :
    ¬ removedScope.2.holds "a" i = true := by
  have hold : removedScope.2.holds "a" ⟨1, 0⟩ = false := by cbv
  rw [nested_iff_of_no_scope fun j hj =>
    Option.some.inj (scopeOf_removedScope.symm.trans hj) ▸ gone_removedScope] at hi
  rw [hi, hold]
  exact Bool.false_ne_true

/-- The chain of the child is severed, so the theorem says that it finds nothing. -/
theorem Run.owner?_past_removed_scope :
    Severed removedScope.2.nodes ⟨1, 0⟩ ∧
      (removedScope.2.owner? ⟨1, 0⟩ "a" =
          (removedScope.2.parent? ⟨1, 0⟩).bind (removedScope.2.owner? · "a") ↔
        ¬ Severed removedScope.2.nodes ⟨1, 0⟩ ∨
          (removedScope.2.parent? ⟨1, 0⟩).bind (removedScope.2.owner? · "a") = none) ∧
      (Severed removedScope.2.nodes ⟨1, 0⟩ → removedScope.2.owner? ⟨1, 0⟩ "a" = none) := by
  have hcells : removedScope.2.nodes.cells.length = 3 := by cbv
  have hvacated : removedScope.2.nodes.cells.map Cell.vacated = [0, 0, 1] := by cbv
  have hlive : removedScope.2.contains ⟨1, 0⟩ = true := by cbv
  refine ⟨⟨⟨1, 0⟩, ⟨2, 0⟩, .refl, scopeOf_removedScope, gone_removedScope⟩,
    Run.owner?_past_scopes run_removedScope (by rw [hcells]; decide) (fun c hc => ?_) hlive
      ne_globalId_removedScope not_holds_removedScope⟩
  have hmem : c.vacated ∈ [0, 0, 1] := hvacated ▸ List.mem_map_of_mem hc
  have hall : ∀ n ∈ [0, 0, 1], n < UInt32.size := by decide
  exact hall _ hmem

/-- **What lies above is out of sight**: the root sees its context, and the child, which holds no
context of that name and has no implicit scope, does not. -/
theorem owner?_of_removed_scope :
    removedScope.2.contains ⟨1, 0⟩ = true ∧ "a" ≠ removedScope.2.globalId ∧
      (∀ i, Nested removedScope.2.nodes ⟨1, 0⟩ i → ¬ removedScope.2.holds "a" i = true) ∧
      removedScope.2.parent? ⟨1, 0⟩ = some ⟨0, 0⟩ ∧
      removedScope.2.owner? ⟨0, 0⟩ "a" = some (.node ⟨0, 0⟩) ∧
      removedScope.2.owner? ⟨1, 0⟩ "a" = none :=
  ⟨by cbv, ne_globalId_removedScope, not_holds_removedScope, by cbv, by cbv, by cbv⟩

end DataBinding.Scope
