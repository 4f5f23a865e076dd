import DataBinding.Proofs.Scope.Run
import DataBinding.Proofs.Scope.Seen

/-!
# Writing at a path and writing the whole

To write at a path inside a context that a node sees is to set that context, where it is, to its old
value with the write made in it: the same tree is left and the same observers are told the same
values, also if the write cannot reach its path. No node has two contexts of one name for that, or
the two would change different ones of them.

* `Keyed`: the contexts of every node have distinct names; `Run.keyed`: so it is after every run.
* `write_congr`: a write depends on the value that is there.
* `setAt_of_owner`, `set_of_slot`: both calls, where the context is there.
* `Run.setAt_eq_set`: both calls do the same.
-/

namespace DataBinding.Scope

variable {t u : Tree} {x y : NodeId} {c : String}

/-! ## Distinct names -/

/-- The contexts of every node have distinct names. -/
def Keyed (t : Tree) : Prop :=
  ∀ x n, t.node? x = some n → n.contexts.Distinct

namespace Keyed

theorem alike (h : Keyed t) (hu : Alike t u) : Keyed u := by
  intro x m hm
  have hx := hu.node? x
  rw [hm, Option.map_some, eq_comm, Option.map_eq_some_iff] at hx
  obtain ⟨n, hn, he⟩ := hx
  have hkeys : m.contexts.keys = n.contexts.keys := by
    have := congrArg (fun n => n.contexts.keys) he.symm
    simpa only [Node.unwatched, Entries.keys_mapValues] using this
  exact Entries.distinct_of_keys_eq (h x n hn) hkeys

theorem modifyNode (h : Keyed t) (x : NodeId) {f : Node → Node}
    (hf : ∀ n, n.contexts.Distinct → (f n).contexts.Distinct) : Keyed (t.modifyNode x f) := by
  intro y n hn
  have hget : (t.modifyNode x f).node? y = if y = x then (t.node? x).map f else t.node? y :=
    Arena.get?_modify _ _ _ _
  rw [hget] at hn
  split at hn
  · obtain ⟨m, hm, rfl⟩ := Option.map_eq_some_iff.mp hn
    exact hf m (h x m hm)
  · exact h y n hn

theorem addNode (h : Keyed t) (parent : Option NodeId) : Keyed (t.addNode parent) := by
  intro x n hn
  rcases Arena.eq_or_get?_of_alloc hn with rfl | hold
  · exact Entries.distinct_empty
  · exact h x n hold

theorem write (h : Keyed t) (T : Target) (f : Value → Value) : Keyed (t.write T f) := by
  obtain ⟨owner, c⟩ := T
  cases owner with
  | global => exact h
  | node x => exact h.modifyNode x fun _ hn => hn.modify c _

theorem addContext (h : Keyed t) (x : NodeId) (c : String) (value : Value) :
    Keyed (t.addContext x c value) :=
  h.modifyNode x fun _ hn => hn.insert c _

theorem remove (h : Keyed t) (hx : t.contains x = true) : Keyed (t.remove x).tree := by
  have hunlink : Keyed (t.unlink x) := by
    obtain ⟨-, hu⟩ | ⟨p, -, hu⟩ := t.unlink_cases x <;> rw [hu]
    · exact h
    · exact h.modifyNode p fun _ hn => hn
  have hcut : Keyed (t.cut x) := by
    intro y n hn
    have hget : (t.cut x).node? y = if y ∈ t.removed x then none else (t.unlink x).node? y :=
      get?_dismantle ..
    rw [hget] at hn
    split at hn
    · cases hn
    · exact hunlink y n hn
  exact hcut.alike (alike_remove hx)

/-- **Every change keeps the names distinct.** -/
theorem change (h : Keyed t) {spared : Prop} (hc : Change spared t u) : Keyed u := by
  cases hc with
  | addRoot => exact h.addNode none
  | addLeaf _ => exact (h.addNode _).modifyNode _ fun _ hn => hn
  | addScope _ _ => exact (h.addNode _).modifyNode _ fun _ hn => hn
  | write f _ _ => exact h.write _ f
  | addContext value _ _ _ => exact (h.addContext _ _ value).alike (alike_rebindWhere _ _)
  | remove hx _ => exact h.remove hx
  | @clearScope m i _ hlive =>
    have hdrop : Keyed (t.dropScope m) := h.modifyNode m fun _ hn => hn
    exact hdrop.remove ((contains_dropScope t m i).trans hlive)
  | dropScope _ => exact h.modifyNode _ fun _ hn => hn
  | register x subject _ _ => exact h.alike (alike_register ..)
  | unsubscribe id => exact h.alike (alike_unsubscribe t id)

end Keyed

theorem Run.keyed {allowed : Tree → Call → Prop} {log : List Exchange} {globalId : String}
    {value : Value} {registry : Registry} (h : Run allowed (.new globalId value registry) log t) :
    Keyed t := by
  refine h.keeps_always (fun x n hn => ?_) fun hc hk => hk.change hc
  rw [Tree.node?_eq, Tree.new, get?_empty] at hn
  cases hn

/-! ## Both calls -/

/-- A write depends on the value that is there only. -/
theorem write_congr (h : Keyed t) {T : Target} {s : Slot} (hs : t.slot? T = some s)
    {f g : Value → Value} (hfg : f s.value = g s.value) : t.write T f = t.write T g := by
  obtain ⟨owner, c⟩ := T
  cases owner with
  | global =>
    obtain rfl := Option.some.inj hs
    simp only [Tree.write, Tree.modifySlot, hfg]
  | node x =>
    obtain ⟨n, hn, hc⟩ := Option.bind_eq_some_iff.mp hs
    have hcontexts : n.contexts.modify c (fun s => { s with value := f s.value }) =
        n.contexts.modify c fun s => { s with value := g s.value } :=
      Entries.modify_congr (h x n hn) hc (by rw [hfg])
    simp only [Tree.write, Tree.modifySlot, Tree.modifyNode]
    rw [Arena.modify_congr hn]
    simp only [hcontexts]

/-- Writing at a path writes the context that the node sees and tells its observers. -/
theorem setAt_of_owner (hx : t.contains x = true) {o : Owner} (ho : t.owner? x c = some o)
    (path : Path) (v : Value) :
    t.setAt x c path v =
      { result := .ok ()
        tree := t.write ⟨o, c⟩ (·.set path v)
        trace := ⟨[], if ((t.slot? ⟨o, c⟩).bind fun s => s.value.write? path v).isSome then []
            else [.writeIgnored path]⟩ ++
          (t.write ⟨o, c⟩ (·.set path v)).notify ⟨o, c⟩
        ends := (t.write ⟨o, c⟩ (·.set path v)).notifyEnds ⟨o, c⟩ } := by
  obtain ⟨n, hn⟩ := Option.isSome_iff_exists.mp hx
  rw [Tree.setAt, hn, Tree.owner?_eq_some_iff.mp ho]
  rfl

/-- Setting a context that is there writes it and tells its observers. -/
theorem set_of_slot {s : Slot} (hs : t.slot? (t.site y c) = some s) (v : Value) :
    t.set y c v =
      { result := .ok ()
        tree := t.write (t.site y c) fun _ => v
        trace := (t.write (t.site y c) fun _ => v).notify (t.site y c)
        ends := (t.write (t.site y c) fun _ => v).notifyEnds (t.site y c) } := by
  by_cases hc : c = t.globalId
  · rw [Tree.set, if_pos hc, Tree.site, if_pos hc]
    rfl
  · rw [Tree.site_of_ne y hc] at hs ⊢
    obtain ⟨n, hn, hslot⟩ := Option.bind_eq_some_iff.mp hs
    have hhere : n.contexts.contains c = true := by
      rw [Entries.contains, hslot, Option.isSome_some]
    rw [Tree.set, if_neg hc, hn]
    dsimp only
    rw [if_pos hhere]
    rfl

/-- Where a lookup finds a context, it is set from the node that holds it, and from any node if it
is the global one. -/
theorem site_of_owner {o : Owner} (ho : t.owner? x c = some o) (hy : o = .global ∨ o = .node y) :
    t.site y c = ⟨o, c⟩ := by
  rcases hy with rfl | rfl
  · rw [Tree.site, if_pos (Tree.eq_globalId_of_owner? ho)]
  · exact Tree.site_of_ne y (Tree.holds_of_owner? ho).1

/-- **Writing at a path is writing the whole.** After every run and for every node that is there: a
write at a path inside a context that the node sees is allowed, leaves the same tree and tells the
same observers the same values in the same order as setting that context to its value with the write
made in it, at the node that owns it, or at any node if it is the global one. Both leave the same
events, but for the one of a write that cannot reach its path. -/
theorem Run.setAt_eq_set {log : List Exchange} {globalId : String} {value : Value}
    {registry : Registry} (h : Run AnyCall (.new globalId value registry) log t)
    (hx : t.contains x = true) {o : Owner} (ho : t.owner? x c = some o) (path : Path) (v : Value) :
    ∃ w, t.value? x c = some w ∧ ∀ y, o = .global ∨ o = .node y →
      (t.setAt x c path v).result = .ok () ∧
      (t.set y c (w.set path v)).result = .ok () ∧
      (t.setAt x c path v).tree = (t.set y c (w.set path v)).tree ∧
      (t.setAt x c path v).trace.deliveries =
        (t.set y c (w.set path v)).trace.deliveries ∧
      (t.setAt x c path v).trace.events =
        (if (w.write? path v).isSome then [] else [.writeIgnored path]) ++
          (t.set y c (w.set path v)).trace.events := by
  obtain ⟨s, hs⟩ := Option.isSome_iff_exists.mp (Tree.slot?_of_owner? ho)
  refine ⟨s.value, by rw [Tree.value?, ho, Option.bind_some, hs]; rfl, fun y hy => ?_⟩
  have hsite : t.site y c = ⟨o, c⟩ := site_of_owner ho hy
  have hwrite : t.write ⟨o, c⟩ (·.set path v) = t.write ⟨o, c⟩ fun _ => s.value.set path v :=
    write_congr h.keyed hs rfl
  rw [setAt_of_owner hx ho, set_of_slot (hsite ▸ hs), hsite, hs, Option.bind_some, hwrite]
  exact ⟨rfl, rfl, rfl, List.nil_append _, rfl⟩

/-- For instance inside the context of an implicit scope, seen from its child: a write that makes an
object of `null`, and one that cannot reach its path. -/
theorem Run.setAt_eq_set_of_scope :
    let t := ((Tree.new "global" .null .empty).calls siblings).2
    t.contains ⟨4, 0⟩ = true ∧ t.owner? ⟨4, 0⟩ "a" = some (.node ⟨3, 0⟩) ∧
      (t.setAt ⟨4, 0⟩ "a" [.key "b"] (.bool true)).tree =
        (t.set ⟨3, 0⟩ "a" (.object ⟨[("b", .bool true)]⟩)).tree ∧
      (t.setAt ⟨4, 0⟩ "a" [.index 0] (.bool true)).tree = (t.set ⟨3, 0⟩ "a" .null).tree := by
  have hrun := @Run.of_calls AnyCall (Tree.new "global" .null .empty) siblings fun _ _ _ => trivial
  have hx : ((Tree.new "global" .null .empty).calls siblings).2.contains ⟨4, 0⟩ = true := by cbv
  have ho : ((Tree.new "global" .null .empty).calls siblings).2.owner? ⟨4, 0⟩ "a" =
      some (.node ⟨3, 0⟩) := by cbv
  have hnull : ((Tree.new "global" .null .empty).calls siblings).2.value? ⟨4, 0⟩ "a" =
      some .null := by cbv
  refine ⟨hx, ho, ?_, ?_⟩
  · obtain ⟨w, hw, heq⟩ := Run.setAt_eq_set hrun hx ho [.key "b"] (.bool true)
    obtain rfl := Option.some.inj (hnull.symm.trans hw)
    exact (heq ⟨3, 0⟩ (Or.inr rfl)).2.2.1
  · obtain ⟨w, hw, heq⟩ := Run.setAt_eq_set hrun hx ho [.index 0] (.bool true)
    obtain rfl := Option.some.inj (hnull.symm.trans hw)
    exact (heq ⟨3, 0⟩ (Or.inr rfl)).2.2.1

end DataBinding.Scope
