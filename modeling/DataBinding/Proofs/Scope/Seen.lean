import DataBinding.Proofs.Scope.Family
import DataBinding.Proofs.Scope.Reactive
import DataBinding.Proofs.Scope.Refused

/-!
# Where a new value is seen

A context that is set at a node is seen from the nodes whose lookup comes to that node before it
comes to another one that holds the context, and the global context from everywhere. All else is
seen as before. No links need to agree for that: a lookup that finds something has an end.

* `Tree.Finds`: a lookup as steps from node to node.
* `owner?_eq_node_iff`: a lookup finds the first node that holds the context.
* `owner?_set`, `slot?_set_site`, `slot?_set_of_ne`: lookups and values after a context is set.
* `value?_set`: what every node sees after a context is set.
-/

namespace DataBinding.Scope

variable {t u : Tree} {n m x : NodeId} {c d : String} {v : Value} {j k : Nat}

/-! ## Lookups by steps -/

/-- The lookup for a context from a node comes to `n` after a number of steps, each from a node that
does not hold the context to its implicit scope, or else to its parent, and `n` holds it. -/
inductive Tree.Finds (t : Tree) (c : String) (n : NodeId) : Nat → NodeId → Prop where
  | here : t.holds c n = true → Finds t c n 0 n
  | further {k : Nat} {x up : NodeId} {node : Node} : ¬ t.holds c x = true →
      t.node? x = some node → node.next = some up → Finds t c n k up → Finds t c n (k + 1) x

/-- `n` is the first node that holds the context on the way of the lookup from `m`. -/
def Tree.FirstHolder (t : Tree) (c : String) (m n : NodeId) : Prop :=
  ∃ k, t.Finds c n k m

theorem Tree.pass_of_holds (h : t.holds c x = true) : t.pass c x = none := by
  rw [pass, if_pos h]

namespace Tree.Finds

theorem holds (h : t.Finds c n k x) : t.holds c n = true := by
  induction h with
  | here hholds => exact hholds
  | further _ _ _ _ ih => exact ih

/-- The steps are the turns of the lookup. -/
theorem trail (h : t.Finds c n k x) : ∃ passed, Trail (t.pass c) x passed n := by
  induction h with
  | here hholds => exact ⟨[], .here (pass_of_holds hholds)⟩
  | @further k x up node hnot hx hup _ ih =>
    obtain ⟨passed, htrail⟩ := ih
    refine ⟨x :: passed, .further ?_ htrail⟩
    rw [pass_of_node? hx, if_neg hnot, hup]

end Tree.Finds

theorem Tree.exists_finds_of_trail {passed : List NodeId} (h : Trail (t.pass c) x passed n)
    (hn : t.holds c n = true) : ∃ k, t.Finds c n k x := by
  induction h with
  | here _ => exact ⟨0, .here hn⟩
  | @further x up last passed hup htrail ih =>
    obtain ⟨k, hk⟩ := ih hn
    obtain ⟨node, hx⟩ := Option.isSome_iff_exists.mp (contains_of_pass hup)
    rw [pass_of_node? hx] at hup
    obtain ⟨hnot, hup⟩ := Option.ite_none_left_eq_some.mp hup
    exact ⟨k + 1, .further hnot hx hup hk⟩

/-- **A lookup finds the first node that holds the context**, in every tree. -/
theorem owner?_eq_node_iff (hc : c ≠ t.globalId) :
    t.owner? m c = some (.node n) ↔ t.FirstHolder c m n := by
  constructor
  · intro h
    obtain ⟨passed, last, htrail, hlast, he⟩ := Tree.exists_trail_of_owner? hc h
    obtain rfl := Owner.node.inj he
    exact Tree.exists_finds_of_trail htrail hlast
  · rintro ⟨k, hfinds⟩
    obtain ⟨passed, htrail⟩ := hfinds.trail
    rw [Tree.owner?_of_trail hc htrail, if_pos hfinds.holds]

/-! ## After a context is set -/

/-- Where a context is set: the global one in its own place, another one at the node. -/
def Tree.site (t : Tree) (n : NodeId) (c : String) : Target :=
  ⟨if c = t.globalId then .global else .node n, c⟩

theorem Tree.site_of_ne (n : NodeId) (hc : c ≠ t.globalId) : t.site n c = ⟨.node n, c⟩ := by
  rw [site, if_neg hc]

theorem Tree.proper_site (t : Tree) (n : NodeId) (c : String) :
    (t.site n c).Proper t.globalId := by
  by_cases hc : c = t.globalId
  · exact fun _ => hc
  · rw [site_of_ne n hc]
    exact Target.proper_node

/-- Setting a context writes it where it is there, and else adds it to the node. -/
theorem set_site_cases (hn : t.contains n = true) (c : String) (v : Value) :
    ((t.slot? (t.site n c)).isSome = true ∧
        (t.set n c v).tree = t.write (t.site n c) fun _ => v) ∨
      (c ≠ t.globalId ∧ Alike (t.addContext n c v) (t.set n c v).tree) := by
  obtain h | ⟨⟨owner, d⟩, hd, -, hlive, howner, h⟩ | ⟨hc, -, -, h⟩ := t.set_cases n c v
  · have hok : (t.set n c v).result = .ok () := Tree.result_set (Or.inr hn) v
    rw [h] at hok
    cases hok
  · obtain rfl : d = c := hd
    obtain rfl : owner = _ := howner
    rw [h]
    exact Or.inl ⟨hlive, rfl⟩
  · rw [h]
    exact Or.inr ⟨hc, alike_rebindWhere _ _⟩

/-- The value is there. -/
theorem slot?_set_site (hn : t.contains n = true) (c : String) (v : Value) :
    ((t.set n c v).tree.slot? (t.site n c)).map (·.value) = some v := by
  have hproper := t.proper_site n c
  obtain ⟨hlive, h⟩ | ⟨hc, h⟩ := set_site_cases hn c v
  · obtain ⟨s, hs⟩ := Option.isSome_iff_exists.mp hlive
    rw [h, Tree.slot?_write hproper hproper, if_pos rfl, hs]
    rfl
  · rw [h.slot?_value, Tree.site_of_ne n hc, Tree.slot?_addContext, if_pos ⟨rfl, hn⟩]
    rfl

/-- No other value changes. -/
theorem slot?_set_of_ne (hn : t.contains n = true) {T : Target} (hT : T.Proper t.globalId)
    (hne : T ≠ t.site n c) (v : Value) :
    ((t.set n c v).tree.slot? T).map (·.value) = (t.slot? T).map (·.value) := by
  obtain ⟨-, h⟩ | ⟨hc, h⟩ := set_site_cases hn c v
  · rw [h, Tree.slot?_write (t.proper_site n c) hT, if_neg hne]
  · rw [Tree.site_of_ne n hc] at hne
    rw [h.slot?_value, Tree.slot?_addContext, if_neg fun h => hne h.1]

/-- A lookup finds what was set or what it found before. -/
theorem owner?_set (hn : t.contains n = true) (c : String) (v : Value) (m : NodeId) (d : String) :
    (d = c ∧ (t.set n c v).tree.owner? m d = some (t.site n c).owner) ∨
      (t.set n c v).tree.owner? m d = t.owner? m d := by
  obtain ⟨-, h⟩ | ⟨hc, h⟩ := set_site_cases hn c v
  · rw [h]
    exact Or.inr (owner?_write (t.proper_site n c) _ m d)
  · rw [h.owner?, Tree.site_of_ne n hc]
    by_cases hd : d = c
    · rw [hd]
      exact (owner?_addContext_self hc hn v m).imp_left fun ho => ⟨rfl, ho⟩
    · exact Or.inr (owner?_addContext hd n v m)

/-- A node sees the new value if its lookup ends where that was set, and else what it saw. -/
theorem value?_set_cases (hn : t.contains n = true) (c : String) (v : Value) (m : NodeId)
    (d : String) :
    (d = c ∧ (t.set n c v).tree.owner? m d = some (t.site n c).owner →
        (t.set n c v).tree.value? m d = some v) ∧
      (¬ (d = c ∧ (t.set n c v).tree.owner? m d = some (t.site n c).owner) →
        (t.set n c v).tree.value? m d = t.value? m d) := by
  constructor
  · rintro ⟨rfl, ho⟩
    rw [Tree.value?, ho]
    exact slot?_set_site hn d v
  · intro hnot
    have howner := (owner?_set hn c v m d).resolve_left hnot
    refine value?_congr howner fun o ho => slot?_set_of_ne hn (Tree.proper_of_owner? ho) ?_ v
    intro he
    have hd : d = c := congrArg Target.context he
    exact hnot ⟨hd, by rw [howner, ho, ← congrArg Target.owner he]⟩

/-- **A value is seen exactly where it should be.** After a context is set at a node that is there,
a node sees the new value under the name of that context, if it is the global one or the node where
it was set is the first to hold it on the lookup's way; every other context of every node is seen as
before. Setting the global context changes no node. -/
theorem value?_set (hn : t.contains n = true) (c : String) (v : Value) :
    (t.set n c v).result = .ok () ∧
    (∀ m d, d = c ∧ (c = t.globalId ∨ (t.set n c v).tree.FirstHolder c m n) →
      (t.set n c v).tree.value? m d = some v) ∧
    (∀ m d, ¬ (d = c ∧ (c = t.globalId ∨ (t.set n c v).tree.FirstHolder c m n)) →
      (t.set n c v).tree.value? m d = t.value? m d) ∧
    (c = t.globalId → (t.set n c v).tree.nodes = t.nodes) := by
  have hid : (t.set n c v).tree.globalId = t.globalId := t.globalId_set n c v
  have hseen : ∀ m, (c = t.globalId ∨ (t.set n c v).tree.FirstHolder c m n) ↔
      (t.set n c v).tree.owner? m c = some (t.site n c).owner := by
    intro m
    by_cases hc : c = t.globalId
    · have hglobal : (t.set n c v).tree.owner? m c = some .global :=
        Tree.owner?_of_eq_globalId (hc.trans hid.symm) m
      rw [hglobal, Tree.site, if_pos hc]
      exact ⟨fun _ => rfl, fun _ => Or.inl hc⟩
    · rw [Tree.site_of_ne n hc, owner?_eq_node_iff (hid ▸ hc)]
      exact or_iff_right hc
  refine ⟨Tree.result_set (Or.inr hn) v, fun m d h => ?_, fun m d h => ?_, fun hc => ?_⟩
  · obtain ⟨rfl, h⟩ := h
    exact (value?_set_cases hn d v m d).1 ⟨rfl, (hseen m).mp h⟩
  · refine (value?_set_cases hn c v m d).2 ?_
    rintro ⟨rfl, hfound⟩
    exact h ⟨rfl, (hseen m).mpr hfound⟩
  · rw [Tree.set, if_pos hc]

/-- For instance at the implicit scope of a root. One child of the root sees the value, and another
child goes on seeing that of its own scope. -/
theorem value?_set_of_siblings :
    let t := ((Tree.new "global" .null .empty).calls siblings).2
    t.contains ⟨5, 0⟩ = true ∧
      (t.set ⟨5, 0⟩ "a" (.bool true)).tree.value? ⟨1, 1⟩ "a" = some (.bool true) ∧
      (t.set ⟨5, 0⟩ "a" (.bool true)).tree.value? ⟨2, 0⟩ "a" = some .null := by
  have hn : ((Tree.new "global" .null .empty).calls siblings).2.contains ⟨5, 0⟩ = true := by cbv
  obtain ⟨-, hseen, hrest, -⟩ := value?_set hn "a" (.bool true)
  have hc : "a" ≠ (((Tree.new "global" .null .empty).calls siblings).2.set ⟨5, 0⟩ "a"
      (.bool true)).tree.globalId := by cbv
  refine ⟨hn, hseen ⟨1, 1⟩ "a" ⟨rfl, Or.inr ((owner?_eq_node_iff hc).mp (by cbv))⟩,
    (hrest ⟨2, 0⟩ "a" ?_).trans (by cbv)⟩
  rintro ⟨-, he | hfirst⟩
  · exact absurd he (by cbv)
  · have hfound := (owner?_eq_node_iff hc).mpr hfirst
    have hscope : (((Tree.new "global" .null .empty).calls siblings).2.set ⟨5, 0⟩ "a"
        (.bool true)).tree.owner? ⟨2, 0⟩ "a" = some (.node ⟨3, 0⟩) := by cbv
    rw [hscope] at hfound
    cases hfound

end DataBinding.Scope
