import DataBinding.Proofs.Scope.Refused
import DataBinding.Proofs.Scope.Subscriptions

/-!
# Identities are not given out twice

A cell is used again and again, but the identity of a node is its own as long as no cell was
vacated `2 ^ 32` times. What a run made and what it removed therefore says what is there.

* `Tree.made?`, `Tree.released`: the node that a call makes, and those that it removes.
* `Relink`: what a call does to the links; `Tree.relink_call`: every call does one of these.
* `Tree.births`, `Tree.deaths`: the nodes that a sequence of calls makes, and those that it removes.
* `Recorded`: what these say of a tree; `Recorded.call`, `Recorded.calls`: every call keeps it.
* `births_distinct`: identities are distinct and an identity that was removed is gone for ever.
-/

namespace DataBinding.Scope

variable {t u : Tree} {x y : NodeId}

/-! ## Nodes that come and go -/

/-- The call may make a node. -/
def Call.MayMake : Call → Prop
  | .addRoot | .addChild _ | .setImplicit _ _ _ => True
  | _ => False

namespace Tree

/-- The node that a call makes: the one that it gives back, or the implicit scope that a node names
after it and had not before. -/
def made? (t : Tree) (c : Call) : Option NodeId :=
  match (t.call c).result, c with
  | .ok (.node x), _ => some x
  | .ok .done, .setImplicit m _ _ =>
    if (scopeOf t.nodes m).any t.contains then none else scopeOf (t.call c).tree.nodes m
  | _, _ => none

/-- The nodes that a call takes out of the arena, in order. -/
def released (t : Tree) : Call → List NodeId
  | .remove x => t.removed x
  | .clearImplicit m =>
    match (scopeOf t.nodes m).filter t.contains with
    | some i => (t.dropScope m).removed i
    | none => []
  | _ => []

theorem removed_of_gone (hx : ¬ t.contains x = true) : t.removed x = [] := by
  have hgone : (t.unlink x).nodes.release? x = none := by
    unfold Arena.release?
    rw [Arena.get?_of_not_contains (by rwa [contains_unlink])]
  unfold removed
  rw [dismantle]
  split
  · rw [dismantle]
  · rename_i heq
    rw [hgone] at heq
    cases heq

theorem stale_of_mem_removed (hx : t.contains x = true) (hy : y ∈ t.removed x) :
    (t.remove x).tree.nodes.Stale y :=
  (alike_remove hx).grows.stale ((releases_dismantle ..).stale hy)

end Tree

/-- What a call does to the links of the nodes, with the node that it makes and those that it
removes. -/
inductive Relink (t : Tree) : Call → Tree → Option NodeId → List NodeId → Prop where
  | same {c : Call} {u : Tree} : SameLinks t.nodes u.nodes → Relink t c u none []
  | root : Relink t .addRoot (t.addNode none) (some t.nodes.nextId) []
  | leaf {p : NodeId} : t.contains p = true →
      Relink t (.addChild p) (t.addLeaf p) (some t.nodes.nextId) []
  | scope {m : NodeId} {c : String} {value : Value} {u : Tree} : t.contains m = true →
      (∀ i, scopeOf t.nodes m = some i → ¬ t.contains i = true) →
      SameLinks (t.addScope m (parentOf t.nodes m)).nodes u.nodes →
      (t.addScope m (parentOf t.nodes m)).nodes.Grows u.nodes →
      Relink t (.setImplicit m c value) u (some t.nodes.nextId) []
  | remove {x : NodeId} : t.contains x = true →
      Relink t (.remove x) (t.remove x).tree none (t.removed x)
  | clearScope {m i : NodeId} : scopeOf t.nodes m = some i → t.contains i = true →
      Relink t (.clearImplicit m) ((t.dropScope m).remove i).tree none
        ((t.dropScope m).removed i)
  | dropScope {m : NodeId} : (∀ i, scopeOf t.nodes m = some i → ¬ t.contains i = true) →
      Relink t (.clearImplicit m) (t.dropScope m) none []

namespace Tree

theorem made?_of_error {c : Call} {e : ScopeError} (h : (t.call c).result = .error e) :
    t.made? c = none := by
  unfold made?
  rw [h]

/-- Calls of other kinds make no node. -/
theorem made?_eq_none {c : Call} (hc : ¬ c.MayMake) : t.made? c = none := by
  have hdone : ∀ x, Answer.done ≠ .node x := by
    intro x h
    cases h
  have hobserver : ∀ x id, Answer.observer id ≠ .node x := by
    intro x id h
    cases h
  have hr : ∀ x, (t.call c).result ≠ .ok (.node x) := by
    intro x
    cases c with
    | addRoot | addChild _ | setImplicit _ _ _ => exact absurd trivial hc
    | observe y e => exact result_map_ne (hobserver x) _
    | observeContext y d => exact result_map_ne (hobserver x) _
    | unsubscribe id =>
      intro h
      injection h with h
      exact hdone x h
    | _ => exact result_map_ne (fun _ => hdone x) _
  unfold made?
  split
  · rename_i x hx
    exact absurd hx (hr x)
  · exact absurd trivial hc
  · rfl

theorem made?_setImplicit {m : NodeId} {c : String} {value : Value}
    (hr : (t.setImplicit m c value).result = .ok ()) :
    t.made? (.setImplicit m c value) = if (scopeOf t.nodes m).any t.contains then none
      else scopeOf (t.setImplicit m c value).tree.nodes m := by
  simp only [made?, call, Outcome.map, hr, Except.map]

theorem relink_addChild (p : NodeId) :
    Relink t (.addChild p) (t.call (.addChild p)).tree (t.made? (.addChild p)) [] := by
  obtain h | ⟨hp, h⟩ := t.addChild_cases p
  · have hr : (t.call (.addChild p)).result = .error (.nodeNotFound p) := by
      rw [call, h]
      rfl
    rw [made?_of_error hr, call, h]
    exact .same (.refl _)
  · have hm : t.made? (.addChild p) = some t.nodes.nextId := by
      simp only [made?, call, h]
      rfl
    rw [hm, call, h]
    exact .leaf hp

theorem relink_remove (x : NodeId) :
    Relink t (.remove x) (t.remove x).tree none (t.removed x) := by
  by_cases hx : t.contains x = true
  · exact .remove hx
  · have ht : (t.remove x).tree = t :=
      (call_of_refuses (c := .remove x) (.node rfl hx id)).2.1
    rw [ht, removed_of_gone hx]
    exact .same (.refl _)

theorem relink_setImplicit (hs : t.nodes.Sound) (m : NodeId) (c : String) (value : Value)
    (hlt : (t.setImplicit m c value).tree.nodes.cells.length < UInt32.size) :
    Relink t (.setImplicit m c value) (t.setImplicit m c value).tree
      (t.made? (.setImplicit m c value)) [] := by
  obtain h | ⟨i, hi, hlive, h⟩ | ⟨hm, hold, h⟩ := t.setImplicit_cases m c value
  · have hr : (t.call (.setImplicit m c value)).result = .error (.nodeNotFound m) := by
      rw [call, h]
      rfl
    rw [made?_of_error hr, h]
    exact .same (.refl _)
  · have hr : (t.setImplicit m c value).result = .ok () := by rw [h, result_set (Or.inr hlive)]
    have hnone : t.made? (.setImplicit m c value) = none := by
      rw [made?_setImplicit hr, hi, Option.any_some, if_pos hlive]
    rw [hnone, h]
    exact .same (sameLinks_set ..)
  · have hlt' : (t.addScope m (parentOf t.nodes m)).nodes.cells.length < UInt32.size := by
      rw [h] at hlt
      exact (grows_set ..).cells_lt hlt
    have hsmall := ((grows_addNode t _).trans (grows_addScope t m _)).cells_lt hlt'
    have hsame := sameLinks_set (t.addScope m (parentOf t.nodes m)) t.nodes.nextId c value
    have hany : ¬ (scopeOf t.nodes m).any t.contains = true := by
      cases hi : scopeOf t.nodes m with
      | none => simp
      | some i => exact hold i hi
    have hmade : t.made? (.setImplicit m c value) = some t.nodes.nextId := by
      rw [made?_setImplicit (result_setImplicit hs hsmall hm c value), if_neg hany, h, hsame.scope,
        scopeOf_addScope hs hm hlt', if_pos rfl]
    rw [hmade, h]
    exact .scope hm hold hsame (grows_set ..)

theorem relink_clearImplicit (m : NodeId) :
    Relink t (.clearImplicit m) (t.clearImplicit m).tree none (t.released (.clearImplicit m)) := by
  obtain h | ⟨i, hi, hlive, h⟩ | ⟨-, hold, h⟩ := t.clearImplicit_cases m
  · have hr : t.released (.clearImplicit m) = [] := by
      cases hi : scopeOf t.nodes m with
      | none => rw [released, hi, Option.filter_none]
      | some i =>
        have := result_clearImplicit (contains_of_scopeOf hi)
        rw [h] at this
        cases this
    rw [hr, h]
    exact .same (.refl _)
  · have hr : t.released (.clearImplicit m) = (t.dropScope m).removed i := by
      rw [released, hi, Option.filter_some, if_pos hlive]
    rw [hr, h]
    exact .clearScope hi hlive
  · have hr : t.released (.clearImplicit m) = [] := by
      cases hi : scopeOf t.nodes m with
      | none => rw [released, hi, Option.filter_none]
      | some i => rw [released, hi, Option.filter_some, if_neg (hold i hi)]
    rw [hr, h]
    exact .dropScope hold

/-- **Every call changes the links in one of these ways.** -/
theorem relink_call (hs : t.nodes.Sound) (c : Call)
    (hlt : (t.call c).tree.nodes.cells.length < UInt32.size) :
    Relink t c (t.call c).tree (t.made? c) (t.released c) := by
  cases c with
  | addRoot =>
    have hm : t.made? .addRoot = some t.nodes.nextId :=
      congrArg some (Arena.alloc_fst t.nodes { parent := none })
    rw [hm]
    exact .root
  | addChild p => exact relink_addChild p
  | remove x =>
    rw [made?_eq_none (c := .remove x) id]
    exact relink_remove x
  | set x c value =>
    rw [made?_eq_none (c := .set x c value) id]
    exact .same (sameLinks_set ..)
  | setAt x c path value =>
    rw [made?_eq_none (c := .setAt x c path value) id]
    obtain ⟨-, h, -⟩ | ⟨owner, -, -, h, -⟩ := t.setAt_cases x c path value <;>
      rw [call, Outcome.map, h]
    · exact .same (.refl _)
    · exact .same (sameLinks_write ..)
  | setImplicit m c value => exact relink_setImplicit hs m c value hlt
  | clearImplicit m =>
    rw [made?_eq_none (c := .clearImplicit m) id]
    exact relink_clearImplicit m
  | observe x e =>
    rw [made?_eq_none (c := .observe x e) id]
    obtain h | ⟨-, -, h, -⟩ := t.observe_cases x e <;> rw [call, Outcome.map, h]
    · exact .same (.refl _)
    · exact .same (alike_register ..).sameLinks
  | observeContext x c =>
    rw [made?_eq_none (c := .observeContext x c) id]
    obtain ⟨e, ends, h⟩ | ⟨-, -, h⟩ := t.observeContext_cases x c <;> rw [call, Outcome.map, h]
    · exact .same (.refl _)
    · exact .same (alike_register ..).sameLinks
  | unsubscribe id => exact .same (alike_unsubscribe ..).sameLinks

end Tree

/-! ## What a call leaves -/

namespace Relink

variable {c : Call} {made : Option NodeId} {gone : List NodeId}

/-- A node that is made gets the identity that was next. -/
theorem eq_nextId (h : Relink t c u made gone) (hx : made = some x) : x = t.nodes.nextId := by
  cases h with
  | root | leaf | scope => exact (Option.some.inj hx).symm
  | _ => cases hx

/-- **Exactly those are there after a call** that were there or are made, except for those that are
removed. -/
theorem contains_iff (h : Relink t c u made gone) (hs : t.nodes.Sound)
    (hlt : u.nodes.cells.length < UInt32.size) :
    u.nodes.contains x = true ↔ (t.nodes.contains x = true ∨ made = some x) ∧ x ∉ gone := by
  -- where a node is made, none is removed
  have hmade : (u.nodes.contains x = true ↔ x = t.nodes.nextId ∨ t.nodes.contains x = true) →
      (u.nodes.contains x = true ↔
        (t.nodes.contains x = true ∨ some t.nodes.nextId = some x) ∧ x ∉ ([] : List NodeId)) := by
    intro h
    have he : some t.nodes.nextId = some x ↔ x = t.nodes.nextId := by
      rw [Option.some.injEq, eq_comm]
    rw [h, he, or_comm]
    simp
  cases h with
  | same hl => simp [hl.contains]
  | root => exact hmade (contains_addNode hs hlt)
  | leaf hp => exact hmade (contains_addLeaf hs hlt)
  | scope hm hold hl hg =>
    refine hmade ?_
    rw [hl.contains]
    exact contains_addScope hs (hg.cells_lt hlt)
  | remove hx =>
    rw [contains_remove hx]
    simp [and_comm]
  | @clearScope m i hi hlive =>
    have hx : (t.dropScope m).contains i = true := (contains_dropScope t m i).trans hlive
    rw [contains_remove hx, contains_dropScope]
    simp [and_comm]
  | @dropScope m hold =>
    rw [contains_dropScope]
    simp

/-- The cell of a node that is removed is vacated. -/
theorem stale (h : Relink t c u made gone) (hx : x ∈ gone) : u.nodes.Stale x := by
  cases h with
  | remove hlive => exact Tree.stale_of_mem_removed hlive hx
  | @clearScope m i hi hlive =>
    exact Tree.stale_of_mem_removed ((contains_dropScope t m i).trans hlive) hx
  | _ => exact absurd hx List.not_mem_nil

end Relink

/-! ## A sequence of calls -/

/-- A node with the call that made it. -/
structure Birth where
  call : Call
  node : NodeId

namespace Tree

/-- The birth of the node that a call makes, if it makes one. -/
def birth (t : Tree) (c : Call) : List Birth :=
  (t.made? c).toList.map (⟨c, ·⟩)

/-- The births of the nodes that a sequence of calls makes, in order. -/
def births (t : Tree) : List Call → List Birth
  | [] => []
  | c :: cs => t.birth c ++ (t.call c).tree.births cs

/-- The nodes that a sequence of calls removes, in order. -/
def deaths (t : Tree) : List Call → List NodeId
  | [] => []
  | c :: cs => t.released c ++ (t.call c).tree.deaths cs

theorem mem_birth {c : Call} {b : Birth} :
    b ∈ t.birth c ↔ b.call = c ∧ t.made? c = some b.node := by
  obtain ⟨d, x⟩ := b
  simp [birth, eq_comm, and_comm]

theorem deaths_append (t : Tree) (cs ds : List Call) :
    t.deaths (cs ++ ds) = t.deaths cs ++ (t.calls cs).2.deaths ds := by
  induction cs generalizing t with
  | nil => rfl
  | cons c cs ih => simp only [List.cons_append, deaths, calls, ih, List.append_assoc]

theorem grows_calls (t : Tree) (cs : List Call) : t.nodes.Grows (t.calls cs).2.nodes := by
  induction cs generalizing t with
  | nil => exact .refl _
  | cons c cs ih => exact (t.grows_call c).trans (ih _)

end Tree

/-- What was made and what was removed so far says what is there. -/
structure Recorded (births : List Birth) (deaths : List NodeId) (t : Tree) : Prop where
  distinct : (births.map Birth.node).Nodup
  live_iff : ∀ x, t.nodes.contains x = true ↔ x ∈ births.map Birth.node ∧ x ∉ deaths
  stale : ∀ x ∈ deaths, t.nodes.Stale x

namespace Recorded

variable {births : List Birth} {deaths : List NodeId}

theorem new (globalId : String) (value : Value) (registry : Registry) :
    Recorded [] [] (Tree.new globalId value registry) where
  distinct := List.nodup_nil
  live_iff x := by simp [Tree.new, Arena.contains, get?_empty]
  stale := nofun

/-- A node that was ever made is there, or its cell was vacated since. -/
theorem live_or_stale (h : Recorded births deaths t) (hx : x ∈ births.map Birth.node) :
    t.nodes.contains x = true ∨ t.nodes.Stale x := by
  by_cases hd : x ∈ deaths
  · exact Or.inr (h.stale x hd)
  · exact Or.inl ((h.live_iff x).mpr ⟨hx, hd⟩)

/-- The identity given out next was not given out before. -/
theorem nextId_not_mem (h : Recorded births deaths t) (hs : t.nodes.Sound)
    (hlt : t.nodes.cells.length < UInt32.size) (hl : t.nodes.Lasting) :
    t.nodes.nextId ∉ births.map Birth.node := by
  intro hx
  rcases h.live_or_stale hx with hlive | hstale
  · rw [Arena.contains, Arena.get?_nextId hs hlt] at hlive
    cases hlive
  · exact Arena.not_stale_nextId hl hs hlt hstale

/-- A node made before a call and there after it was there all the time. -/
theorem contains_before (h : Recorded births deaths t) (hs : t.nodes.Sound) {c : Call}
    (hlt : (t.call c).tree.nodes.cells.length < UInt32.size)
    (hl : (t.call c).tree.nodes.Lasting) (hx : x ∈ births.map Birth.node)
    (hux : (t.call c).tree.nodes.contains x = true) : t.nodes.contains x = true := by
  have hlt' := (t.grows_call c).cells_lt hlt
  have hl' := (t.grows_call c).lasting (Nat.le_of_lt hlt') hl
  have hre := Tree.relink_call hs c hlt
  refine ((hre.contains_iff hs hlt).mp hux).1.resolve_right fun hmade => ?_
  rw [hre.eq_nextId hmade] at hx
  exact h.nextId_not_mem hs hlt' hl' hx

/-- **Every call keeps the record.** -/
theorem call (h : Recorded births deaths t) (hs : t.nodes.Sound) (c : Call)
    (hlt : (t.call c).tree.nodes.cells.length < UInt32.size)
    (hl : (t.call c).tree.nodes.Lasting) :
    Recorded (births ++ t.birth c) (deaths ++ t.released c) (t.call c).tree := by
  have hlt' := (t.grows_call c).cells_lt hlt
  have hl' := (t.grows_call c).lasting (Nat.le_of_lt hlt') hl
  have hre := Tree.relink_call hs c hlt
  have hbirth : ∀ x, x ∈ (t.birth c).map Birth.node ↔ t.made? c = some x := fun x => by
    simp [Tree.birth]
  constructor
  case distinct =>
    rw [List.map_append, List.nodup_append']
    refine ⟨h.distinct, ?_, fun x hx hx' => ?_⟩
    · unfold Tree.birth
      cases t.made? c <;> simp
    · rw [hre.eq_nextId ((hbirth x).mp hx')] at hx
      exact h.nextId_not_mem hs hlt' hl' hx
  case live_iff =>
    intro x
    rw [hre.contains_iff hs hlt, h.live_iff, List.map_append, List.mem_append, List.mem_append,
      hbirth]
    have hnew : t.made? c = some x → x ∉ deaths := by
      intro hx hd
      rw [hre.eq_nextId hx] at hd
      exact Arena.not_stale_nextId hl' hs hlt' (h.stale _ hd)
    tauto
  case stale =>
    intro x hx
    rcases List.mem_append.mp hx with hx | hx
    · exact (t.grows_call c).stale (h.stale x hx)
    · exact hre.stale hx

/-- **A sequence of calls keeps it.** -/
theorem calls (h : Recorded births deaths t) (hcoh : Coherent t) (cs : List Call)
    (hlt : (t.calls cs).2.nodes.cells.length < UInt32.size) (hl : (t.calls cs).2.nodes.Lasting) :
    Recorded (births ++ t.births cs) (deaths ++ t.deaths cs) (t.calls cs).2 := by
  induction cs generalizing births deaths t with
  | nil => simpa [Tree.births, Tree.deaths, Tree.calls] using h
  | cons c cs ih =>
    have hg := (t.call c).tree.grows_calls cs
    have hlt' := hg.cells_lt hlt
    have hnext := h.call hcoh.sound c hlt' (hg.lasting (Nat.le_of_lt hlt') hl)
    have := ih hnext (hcoh.call c hlt') hlt hl
    simpa only [Tree.births, Tree.deaths, Tree.calls, List.append_assoc] using this

end Recorded

/-! ## Nodes that are gone -/

/-- The identity leads nowhere: nothing can be learnt through it and no call on it reaches a node,
not even the one that lives in its cell now. Only the global context is seen and set as from
everywhere. -/
structure Gone (t : Tree) (x : NodeId) : Prop where
  contains : t.contains x = false
  parent : t.parent? x = none
  children : t.children x = []
  owner : ∀ d, d ≠ t.globalId → t.owner? x d = none
  slot : ∀ d, t.slot? ⟨.node x, d⟩ = none
  calls : ∀ c : Call, c.node? = some x → (t.call c).tree.nodes = t.nodes ∧
    (c.SetsGlobal t.globalId ∨ (t.call c).result = .error (.nodeNotFound x) ∧ (t.call c).tree = t)

theorem nodes_of_setsGlobal {c : Call} (h : c.SetsGlobal t.globalId) :
    (t.call c).tree.nodes = t.nodes := by
  cases c with
  | set x d value =>
    have hd : d = t.globalId := h
    simp only [Tree.call, Outcome.map, Tree.set, if_pos hd]
  | _ => exact h.elim

theorem gone_of_node? (h : t.node? x = none) : Gone t x where
  contains := by rw [Tree.contains, h]; rfl
  parent := by rw [Tree.parent?, h]; rfl
  children := by rw [Tree.children, h]; rfl
  owner d hd := Tree.owner?_of_gone hd h
  slot d := by simp only [Tree.slot?, h, Option.bind_none]
  calls c hc := by
    by_cases hg : c.SetsGlobal t.globalId
    · exact ⟨nodes_of_setsGlobal hg, Or.inl hg⟩
    · have hx : ¬ t.contains x = true := by rw [Tree.contains, h]; exact Bool.false_ne_true
      obtain ⟨hr, ht, -⟩ := Tree.call_of_refuses (.node hc hx hg)
      exact ⟨congrArg Tree.nodes ht, Or.inr ⟨(Outcome.returned?_eq_some_iff.mp hr).2, ht⟩⟩

/-- **Identities are not given out twice**: the nodes that a run makes are distinct, those are there
that it made and did not remove, and an identity that was removed leads nowhere from then on. -/
theorem births_distinct {globalId : String} {value : Value} {registry : Registry}
    (calls : List Call)
    (hlt : ((Tree.new globalId value registry).calls calls).2.nodes.cells.length < UInt32.size)
    (hl : ((Tree.new globalId value registry).calls calls).2.nodes.Lasting) :
    let start := Tree.new globalId value registry
    let t := (start.calls calls).2
    ((start.births calls).map Birth.node).Nodup ∧
      (∀ x, t.contains x = true ↔
        x ∈ (start.births calls).map Birth.node ∧ x ∉ start.deaths calls) ∧
      ∀ before after, calls = before ++ after → ∀ x ∈ start.deaths before, Gone t x := by
  have h := (Recorded.new globalId value registry).calls (coherent_new ..) calls hlt hl
  rw [List.nil_append, List.nil_append] at h
  refine ⟨h.distinct, h.live_iff, fun before after he x hx => gone_of_node? ?_⟩
  have hdead : x ∈ (Tree.new globalId value registry).deaths calls := by
    rw [he, Tree.deaths_append]
    exact List.mem_append_left _ hx
  exact Arena.get?_of_stale hl (h.stale x hdead)

/-! ## A cell that is used again -/

/-- A root with a child and its implicit scope, then the child removed and another one made. -/
def reuse : List Call :=
  [.addRoot, .addChild ⟨0, 0⟩, .setImplicit ⟨1, 0⟩ "b" .null, .remove ⟨1, 0⟩, .addChild ⟨0, 0⟩]

theorem births_reuse : ((Tree.new "global" .null .empty).births reuse).map Birth.node =
    [⟨0, 0⟩, ⟨1, 0⟩, ⟨2, 0⟩, ⟨2, 1⟩] := by
  cbv

theorem deaths_reuse : (Tree.new "global" .null .empty).deaths reuse = [⟨1, 0⟩, ⟨2, 0⟩] := by
  cbv

theorem cells_lt_reuse :
    ((Tree.new "global" .null .empty).calls reuse).2.nodes.cells.length < UInt32.size := by
  have hcells : ((Tree.new "global" .null .empty).calls reuse).2.nodes.cells.length = 3 := by cbv
  rw [hcells]
  decide

theorem lasting_reuse : ((Tree.new "global" .null .empty).calls reuse).2.nodes.Lasting := by
  have hvacated : ((Tree.new "global" .null .empty).calls reuse).2.nodes.cells.map Cell.vacated =
      [0, 1, 1] := by cbv
  exact Arena.lasting_of_vacated hvacated (by decide)

/-- The child that is made last lives where the implicit scope lived before. -/
theorem births_distinct_of_reused :
    ((Tree.new "global" .null .empty).calls reuse).2.nodes.cells.length < UInt32.size ∧
      ((Tree.new "global" .null .empty).calls reuse).2.nodes.Lasting ∧
      ([⟨0, 0⟩, ⟨1, 0⟩, ⟨2, 0⟩, ⟨2, 1⟩] : List NodeId).Nodup ∧
      ((Tree.new "global" .null .empty).calls reuse).2.contains ⟨2, 1⟩ = true ∧
      Gone ((Tree.new "global" .null .empty).calls reuse).2 ⟨2, 0⟩ := by
  obtain ⟨hdistinct, hlive, hgone⟩ := births_distinct reuse cells_lt_reuse lasting_reuse
  rw [births_reuse] at hdistinct
  refine ⟨cells_lt_reuse, lasting_reuse, hdistinct, (hlive _).mpr ⟨?_, ?_⟩, ?_⟩
  · rw [births_reuse]
    decide
  · rw [deaths_reuse]
    decide
  · refine hgone reuse [] (List.append_nil _).symm _ ?_
    rw [deaths_reuse]
    decide

end DataBinding.Scope
