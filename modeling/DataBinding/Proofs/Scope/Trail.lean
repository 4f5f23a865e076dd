import DataBinding.Proofs.Arena
import DataBinding.Scope.Tree

/-!
# Loops, and when a lookup ends

A loop goes from state to state as long as there is a next one. A lookup is such a loop: its states
are the nodes, and the next one is where the links lead. `Tree.follow` goes round at most once more
than there are cells. That is enough, because a loop that ends comes to no state twice.

* `Trail`: the states that a loop goes through. They are fixed (`Trail.unique`), and no state
  comes twice in a loop that ends (`Trail.nodup`).
* `Tree.pass`: one turn of a lookup.
* `Tree.lookup_of_trail`: a lookup that ends gives what is at its end.
* `Tree.lookup_eq_endless_iff`: the others are the endless ones.
-/

namespace DataBinding.Scope

/-! ## Loops -/

/-- A loop that goes on from a state as long as there is a next one: where it starts, the states
that it passes, in order, and where it ends. -/
inductive Trail {σ : Type} (next : σ → Option σ) : σ → List σ → σ → Prop where
  | here {s : σ} : next s = none → Trail next s [] s
  | further {s s' last : σ} {passed : List σ} : next s = some s' → Trail next s' passed last →
      Trail next s (s :: passed) last

namespace Trail

variable {σ : Type} {next : σ → Option σ} {s last last' : σ} {passed passed' : List σ}

/-- A loop goes one way only. -/
theorem unique (h : Trail next s passed last) (h' : Trail next s passed' last') :
    passed' = passed ∧ last' = last := by
  induction h generalizing passed' with
  | here hs =>
    cases h' with
    | here _ => exact ⟨rfl, rfl⟩
    | further hs' _ =>
      rw [hs] at hs'
      cases hs'
  | further hs _ ih =>
    cases h' with
    | here hs' =>
      rw [hs] at hs'
      cases hs'
    | further hs' h' =>
      obtain rfl := Option.some.inj (hs.symm.trans hs')
      obtain ⟨rfl, rfl⟩ := ih h'
      exact ⟨rfl, rfl⟩

/-- From each of its states a loop goes on to the same end. -/
theorem exists_of_mem (h : Trail next s passed last) {y : σ} (hy : y ∈ passed ++ [last]) :
    ∃ rest, Trail next y rest last ∧ rest.length ≤ passed.length := by
  induction h with
  | here hs =>
    obtain rfl := List.mem_singleton.mp hy
    exact ⟨[], .here hs, Nat.le_refl _⟩
  | further hs h ih =>
    rcases List.mem_cons.mp hy with rfl | hy
    · exact ⟨_, .further hs h, Nat.le_refl _⟩
    · obtain ⟨rest, hrest, hle⟩ := ih hy
      exact ⟨rest, hrest, Nat.le_succ_of_le hle⟩

/-- **A loop that ends comes to no state twice**: it would go round for ever. -/
theorem nodup (h : Trail next s passed last) : (passed ++ [last]).Nodup := by
  induction h with
  | here _ => exact List.nodup_singleton _
  | @further s s' last passed hs h ih =>
    refine List.nodup_cons.mpr ⟨fun hmem => ?_, ih⟩
    obtain ⟨rest, hrest, hle⟩ := h.exists_of_mem hmem
    obtain ⟨rfl, -⟩ := (Trail.further hs h).unique hrest
    rw [List.length_cons] at hle
    omega

/-- A state that is passed has a next one. -/
theorem exists_next (h : Trail next s passed last) {y : σ} (hy : y ∈ passed) :
    ∃ y', next y = some y' := by
  induction h with
  | here _ => cases hy
  | further hs _ ih =>
    rcases List.mem_cons.mp hy with rfl | hy
    · exact ⟨_, hs⟩
    · exact ih hy

end Trail

/-! ## Lookups -/

namespace Tree

variable {t u : Tree} {c : String} {x y last : NodeId} {passed : List NodeId} {turns : Nat}

theorem node?_eq (t : Tree) (x : NodeId) : t.node? x = t.nodes.get? x :=
  rfl

theorem holds_eq (t : Tree) (c : String) (x : NodeId) :
    t.holds c x = ((t.node? x).map (·.contexts.contains c)).getD false := by
  unfold holds
  cases t.node? x <;> rfl

theorem holds_of_gone (hx : t.node? x = none) : t.holds c x = false := by
  rw [holds, hx]

/-- Where the lookup for a context goes from a node, if it does not end there. -/
def pass (t : Tree) (c : String) (x : NodeId) : Option NodeId :=
  if t.holds c x then none else (t.node? x).bind Node.next

theorem pass_of_gone (hx : t.node? x = none) : t.pass c x = none := by
  rw [pass, hx, Option.bind_none, ite_self]

theorem pass_of_node? {n : Node} (hn : t.node? x = some n) :
    t.pass c x = if t.holds c x then none else n.next := by
  rw [pass, hn, Option.bind_some]

/-- What a lookup passes is there. -/
theorem contains_of_pass (h : t.pass c x = some y) : t.contains x = true := by
  cases hx : t.node? x with
  | none =>
    rw [pass_of_gone hx] at h
    cases h
  | some n => exact Arena.contains_of_get? hx

/-- What a lookup gives that ends at the node. -/
def arrival (t : Tree) (c : String) (x : NodeId) : Lookup :=
  if t.holds c x then .found (.node x) else .missing

theorem follow_succ (t : Tree) (c : String) (turns : Nat) (x : NodeId) :
    t.follow c (turns + 1) x = (t.pass c x).elim (t.arrival c x) (t.follow c turns) := by
  rw [follow, pass, arrival, holds]
  cases t.node? x with
  | none => rfl
  | some n =>
    by_cases hc : n.contexts.contains c = true
    · simp only [hc, if_true, Option.elim_none]
    · simp only [hc, Bool.false_eq_true, if_false, Option.bind_some]
      cases n.next <;> rfl

theorem follow_of_trail (h : Trail (t.pass c) x passed last) (hturns : passed.length < turns) :
    t.follow c turns x = t.arrival c last := by
  induction h generalizing turns with
  | here hx =>
    obtain ⟨turns, rfl⟩ := Nat.exists_eq_add_one_of_ne_zero (Nat.ne_zero_of_lt hturns)
    rw [follow_succ, hx, Option.elim_none]
  | further hx _ ih =>
    obtain ⟨turns, rfl⟩ := Nat.exists_eq_add_one_of_ne_zero (Nat.ne_zero_of_lt hturns)
    rw [follow_succ, hx, Option.elim_some, ih (Nat.lt_of_succ_lt_succ hturns)]

theorem exists_trail_of_follow (h : t.follow c turns x ≠ .endless) :
    ∃ passed last, Trail (t.pass c) x passed last := by
  induction turns generalizing x with
  | zero => exact absurd rfl h
  | succ turns ih =>
    cases hx : t.pass c x with
    | none => exact ⟨[], x, .here hx⟩
    | some y =>
      rw [follow_succ, hx, Option.elim_some] at h
      obtain ⟨passed, last, htrail⟩ := ih h
      exact ⟨x :: passed, last, .further hx htrail⟩

/-- The nodes that a lookup passes are there. -/
theorem contains_of_trail (h : Trail (t.pass c) x passed last) (hy : y ∈ passed) :
    t.contains y = true := by
  obtain ⟨z, hz⟩ := h.exists_next hy
  exact contains_of_pass hz

/-- A lookup that ends passes each cell at most once. -/
theorem length_le_of_trail (h : Trail (t.pass c) x passed last) :
    passed.length ≤ t.nodes.cells.length :=
  Arena.length_le_cells (List.Nodup.of_append_left h.nodup) fun _ hy => contains_of_trail h hy

@[simp] theorem lookup_globalId (t : Tree) (x : NodeId) :
    t.lookup x t.globalId = .found .global := by
  rw [lookup, if_pos rfl]

/-- **A lookup that ends** gives what is at its end. -/
theorem lookup_of_trail (hc : c ≠ t.globalId) (h : Trail (t.pass c) x passed last) :
    t.lookup x c = t.arrival c last := by
  rw [lookup, if_neg hc, follow_of_trail h (Nat.lt_succ_of_le (length_le_of_trail h))]

theorem arrival_ne_endless (t : Tree) (c : String) (x : NodeId) : t.arrival c x ≠ .endless := by
  rw [arrival]
  split <;> exact Lookup.noConfusion

theorem exists_trail_of_lookup (hc : c ≠ t.globalId) (h : t.lookup x c ≠ .endless) :
    ∃ passed last, Trail (t.pass c) x passed last := by
  rw [lookup, if_neg hc] at h
  exact exists_trail_of_follow h

/-- **The endless lookups are those that never end**: the bound on their turns cuts none short that
would. -/
theorem lookup_eq_endless_iff (hc : c ≠ t.globalId) :
    t.lookup x c = .endless ↔ ¬ ∃ passed last, Trail (t.pass c) x passed last := by
  constructor
  · rintro h ⟨passed, last, htrail⟩
    exact t.arrival_ne_endless c last ((lookup_of_trail hc htrail).symm.trans h)
  · intro h
    by_contra hne
    exact h (exists_trail_of_lookup hc hne)

/-- For instance where each of two nodes names the other as its implicit scope. -/
example :
    let first : Node := { parent := none, implicit := some ⟨1, 0⟩ }
    let second : Node := { parent := none, implicit := some ⟨0, 0⟩ }
    let t := Tree.new "global" .null .empty
    { t with nodes := ⟨[⟨0, some first⟩, ⟨0, some second⟩], []⟩ }.lookup ⟨0, 0⟩ "a" = .endless := by
  cbv

/-- A lookup gives what it gives from the next node. -/
theorem lookup_of_pass (hc : c ≠ t.globalId) (h : t.pass c x = some y) :
    t.lookup x c = t.lookup y c := by
  by_cases hy : t.lookup y c = .endless
  · rw [hy, lookup_eq_endless_iff hc]
    rintro ⟨passed, last, htrail⟩
    cases htrail with
    | here hx =>
      rw [h] at hx
      cases hx
    | further hx htrail =>
      obtain rfl := Option.some.inj (h.symm.trans hx)
      exact (lookup_eq_endless_iff hc).mp hy ⟨_, _, htrail⟩
  · obtain ⟨passed, last, htrail⟩ := exists_trail_of_lookup hc hy
    rw [lookup_of_trail hc htrail, lookup_of_trail hc (.further h htrail)]

/-! ## Where a lookup finds a context -/

theorem owner?_of_eq_globalId (hc : c = t.globalId) (x : NodeId) :
    t.owner? x c = some .global := by
  rw [owner?, lookup, if_pos hc, Lookup.owner?]

@[simp] theorem owner?_globalId (t : Tree) (x : NodeId) : t.owner? x t.globalId = some .global :=
  owner?_of_eq_globalId rfl x

theorem owner?_eq_some_iff {o : Owner} : t.owner? x c = some o ↔ t.lookup x c = .found o := by
  rw [owner?]
  cases t.lookup x c <;> simp [Lookup.owner?]

theorem owner?_arrival (t : Tree) (c : String) (x : NodeId) :
    (t.arrival c x).owner? = if t.holds c x then some (.node x) else none := by
  rw [arrival]
  split <;> rfl

theorem owner?_of_trail (hc : c ≠ t.globalId) (h : Trail (t.pass c) x passed last) :
    t.owner? x c = if t.holds c last then some (.node last) else none := by
  rw [owner?, lookup_of_trail hc h, owner?_arrival]

/-- A context is found where a lookup ends that holds it. -/
theorem exists_trail_of_owner? {o : Owner} (hc : c ≠ t.globalId) (h : t.owner? x c = some o) :
    ∃ passed last, Trail (t.pass c) x passed last ∧ t.holds c last = true ∧ o = .node last := by
  obtain ⟨passed, last, htrail⟩ := exists_trail_of_lookup hc (x := x) fun he => by
    rw [owner?, he] at h
    cases h
  rw [owner?_of_trail hc htrail] at h
  split at h
  · exact ⟨passed, last, htrail, ‹_›, (Option.some.inj h).symm⟩
  · cases h

/-- Whatever a lookup finds holds the context. -/
theorem holds_of_owner? (h : t.owner? x c = some (.node y)) :
    c ≠ t.globalId ∧ t.holds c y = true := by
  have hc : c ≠ t.globalId := by
    rintro rfl
    rw [owner?_globalId] at h
    cases h
  obtain ⟨passed, last, -, hlast, he⟩ := exists_trail_of_owner? hc h
  obtain rfl := Owner.node.inj he
  exact ⟨hc, hlast⟩

theorem eq_globalId_of_owner? (h : t.owner? x c = some .global) : c = t.globalId := by
  by_contra hc
  obtain ⟨passed, last, -, -, he⟩ := exists_trail_of_owner? hc h
  cases he

theorem owner?_of_gone (hc : c ≠ t.globalId) (hx : t.node? x = none) : t.owner? x c = none := by
  rw [owner?_of_trail hc (.here (pass_of_gone hx)), holds_of_gone hx]
  rfl

/-- **A lookup ends at the first node that holds the context** and else goes on. -/
theorem owner?_of_node? {n : Node} (hc : c ≠ t.globalId) (hn : t.node? x = some n) :
    t.owner? x c = if t.holds c x then some (.node x) else n.next.bind (t.owner? · c) := by
  have hpass := pass_of_node? (c := c) hn
  by_cases hx : t.holds c x = true
  · rw [if_pos hx] at hpass ⊢
    rw [owner?_of_trail hc (.here hpass), if_pos hx]
  · rw [if_neg hx] at hpass ⊢
    cases hu : n.next with
    | none => rw [owner?_of_trail hc (.here (hpass.trans hu)), if_neg hx, Option.bind_none]
    | some y => rw [owner?, lookup_of_pass hc (hpass.trans hu), Option.bind_some, owner?]

/-! ## Lookups in two trees -/

/-- Lookups go out alike in two trees where they take the same turns and the same nodes hold the
context. -/
theorem lookup_of_pass_eq (hid : u.globalId = t.globalId)
    (hpass : ∀ x, u.pass c x = t.pass c x) (hholds : ∀ x, u.holds c x = t.holds c x)
    (x : NodeId) : u.lookup x c = t.lookup x c := by
  by_cases hc : c = t.globalId
  · rw [hc, lookup_globalId, ← hid, lookup_globalId]
  have hc' : c ≠ u.globalId := hid ▸ hc
  have hsame : u.pass c = t.pass c := funext hpass
  by_cases hx : t.lookup x c = .endless
  · rw [hx, lookup_eq_endless_iff hc', hsame, ← lookup_eq_endless_iff hc, hx]
  · obtain ⟨passed, last, htrail⟩ := exists_trail_of_lookup hc hx
    rw [lookup_of_trail hc htrail, lookup_of_trail hc' (hsame ▸ htrail), arrival, arrival, hholds]

/-- Where two trees differ at one node only, and the context is there in the one, the lookups go
together until they come to the node. -/
theorem follow_eq_or_found (hy : u.holds c y = true) (hpass : ∀ x, x ≠ y → u.pass c x = t.pass c x)
    (hholds : ∀ x, x ≠ y → u.holds c x = t.holds c x) (turns : Nat) (x : NodeId) :
    u.follow c turns x = .found (.node y) ∨ u.follow c turns x = t.follow c turns x := by
  induction turns generalizing x with
  | zero => exact Or.inr rfl
  | succ turns ih =>
    by_cases hx : x = y
    · subst hx
      left
      rw [follow_succ, pass, if_pos hy, Option.elim_none, arrival, if_pos hy]
    · rw [follow_succ, follow_succ, hpass x hx, arrival, arrival, hholds x hx]
      cases t.pass c x with
      | none => exact Or.inr rfl
      | some z => exact ih z

end Tree

end DataBinding.Scope
