import DataBinding.Proofs.Scope.Severed

/-!
# Calls that are refused

A call is refused for one of two reasons: the node that it is about is not there, or the lookup for
the context that it needs ends without it. A call that is refused changes nothing and tells
nobody, although some calls do their work in steps that may be refused on their own. A call whose
lookup never ends is not refused, because it never returns.

* `Tree.Refuses`: the reasons.
* `Tree.call_of_refuses`, `Tree.call_of_not_refuses`: what a call does then, and otherwise.
* `Tree.callStepwise_eq`: no step of a call is refused once the call has begun.
* `Tree.ends_call`: a call returns where all lookups end; `Tree.returned?_of_endless`: and not where
  that for the context that it needs does not.
* `Run.refused_iff`: all of this after a run.
-/

namespace DataBinding.Scope

variable {t : Tree}

/-! ## The reasons -/

/-- The node that a call is about. -/
def Call.node? : Call → Option NodeId
  | .addChild x | .remove x | .set x _ _ | .setAt x _ _ _ | .setImplicit x _ _ | .clearImplicit x
  | .observe x _ | .observeContext x _ => some x
  | .addRoot | .unsubscribe _ => none

/-- The context that a call needs to find. -/
def Call.sought? : Call → Option String
  | .setAt _ c _ _ | .observeContext _ c => some c
  | _ => none

/-- The call sets the global context as a whole, for which it needs no node. -/
def Call.SetsGlobal (globalId : String) : Call → Prop
  | .set _ c _ => c = globalId
  | _ => False

/-- Why the tree refuses a call. -/
inductive Tree.Refuses (t : Tree) (c : Call) : ScopeError → Prop where
  | node {x : NodeId} : c.node? = some x → ¬ t.contains x = true → ¬ c.SetsGlobal t.globalId →
      Refuses t c (.nodeNotFound x)
  | context {x : NodeId} {d : String} : c.node? = some x → c.sought? = some d →
      t.contains x = true → t.lookup x d = .missing → Refuses t c (.contextNotFound x d)

/-! ## Calls step by step -/

namespace Tree

/-- Adds a child to a node, which is looked up again when the child is there. -/
def addChildStepwise (t : Tree) (parent : NodeId) : Outcome NodeId :=
  match t.node? parent with
  | none => t.noNode parent
  | some _ =>
    let (id, nodes) := t.nodes.alloc { parent := some parent }
    let t := { t with nodes }
    match t.node? parent with
    | none => t.noNode parent
    | some _ =>
      { result := .ok id
        tree := t.modifyNode parent fun n => { n with children := n.children ++ [id] } }

/-- Gives the context a value at the implicit scope of a node, which is looked up again when the
scope is there. -/
def setImplicitStepwise (t : Tree) (id : NodeId) (context : String) (value : Value) :
    Outcome Unit :=
  match t.node? id with
  | none => t.noNode id
  | some n =>
    match t.implicit? n with
    | some scope => t.set scope context value
    | none =>
      let (scope, nodes) := t.nodes.alloc { parent := n.parent }
      let t := { t with nodes }
      match t.node? id with
      | none => t.noNode id
      | some _ =>
        (t.modifyNode id fun n => { n with implicit := some scope }).set scope context value

/-- What a call does when it looks up its node before every step. -/
def callStepwise (t : Tree) : Call → Outcome Answer
  | .addChild p => (t.addChildStepwise p).map .node
  | .setImplicit m c value => (t.setImplicitStepwise m c value).map fun _ => .done
  | c => t.call c

/-- A node stays when another one is put into the arena. -/
theorem node?_alloc_of_node? (hs : t.nodes.Sound) (hlt : t.nodes.cells.length < UInt32.size)
    {x : NodeId} {n : Node} (hn : t.node? x = some n) (m : Node) :
    ({ t with nodes := (t.nodes.alloc m).2 } : Tree).node? x = some n := by
  have hnew : x ≠ t.nodes.nextId := by
    rintro rfl
    rw [node?_nextId hs hlt] at hn
    cases hn
  have hle := Arena.length_alloc_le t.nodes m
  exact (Arena.get?_alloc hs m (by omega) x).trans ((if_neg hnew).trans hn)

/-- **No step of a call is refused once the call has begun.** -/
theorem callStepwise_eq (hs : t.nodes.Sound) (hlt : t.nodes.cells.length < UInt32.size) (c : Call) :
    t.callStepwise c = t.call c := by
  cases c with
  | addChild p =>
    rw [callStepwise, call, addChildStepwise, addChild]
    cases hn : t.node? p with
    | none => rfl
    | some n => simp only [node?_alloc_of_node? hs hlt hn]
  | setImplicit m c value =>
    rw [callStepwise, call, setImplicitStepwise, setImplicit]
    cases hn : t.node? m with
    | none => rfl
    | some n =>
      cases hi : t.implicit? n with
      | some i => simp only [hi]
      | none => simp only [hi, node?_alloc_of_node? hs hlt hn]
  | _ => rfl

end Tree

/-! ## Refused or not -/

theorem Outcome.returned?_eq_some_iff {α : Type} {o : Outcome α} {r : Except ScopeError α} :
    o.returned? = some r ↔ o.ends = true ∧ o.result = r := by
  rw [returned?, Option.ite_none_right_eq_some, Option.some_inj]

namespace Tree

theorem node?_of_not_contains {x : NodeId} (hx : ¬ t.contains x = true) : t.node? x = none :=
  Arena.get?_of_not_contains hx

/-- A call that is refused returns, changes nothing and tells nobody. -/
theorem call_of_refuses {c : Call} {e : ScopeError} (h : t.Refuses c e) :
    (t.call c).returned? = some (.error e) ∧ (t.call c).tree = t ∧
      (t.call c).trace.deliveries = [] := by
  cases h with
  | node hc hx hg =>
    have hn := node?_of_not_contains hx
    cases c with
    | set y c value =>
      obtain rfl := Option.some.inj hc
      have hne : c ≠ t.globalId := hg
      simp [call, set, hne, hn, Outcome.map, Outcome.returned?, noNode, Except.map]
    | addRoot => cases hc
    | unsubscribe id => cases hc
    | _ =>
      obtain rfl := Option.some.inj hc
      simp [call, addChild, remove, setAt, setImplicit, clearImplicit, observe, observeContext, hn,
        Outcome.map, Outcome.returned?, noNode, Except.map]
  | context hc hd hx ho =>
    obtain ⟨n, hn⟩ := Option.isSome_iff_exists.mp hx
    cases c with
    | setAt y d path value =>
      obtain rfl := Option.some.inj hc
      obtain rfl := Option.some.inj hd
      simp [call, setAt, hn, ho, Outcome.map, Outcome.returned?, Except.map]
    | observeContext y d =>
      obtain rfl := Option.some.inj hc
      obtain rfl := Option.some.inj hd
      simp [call, observeContext, hn, ho, Outcome.map, Outcome.returned?, Except.map]
    | _ => cases hd

/-- A call that has to find a context does not return if the lookup for it never ends. -/
theorem returned?_of_endless {c : Call} {x : NodeId} {d : String} (hc : c.node? = some x)
    (hd : c.sought? = some d) (hx : t.contains x = true) (ho : t.lookup x d = .endless) :
    (t.call c).returned? = none := by
  obtain ⟨n, hn⟩ := Option.isSome_iff_exists.mp hx
  cases c with
  | setAt y d path value =>
    obtain rfl := Option.some.inj hc
    obtain rfl := Option.some.inj hd
    simp [call, setAt, hn, ho, Outcome.map, Outcome.returned?, stuck]
  | observeContext y d =>
    obtain rfl := Option.some.inj hc
    obtain rfl := Option.some.inj hd
    simp [call, observeContext, hn, ho, Outcome.map, Outcome.returned?, stuck]
  | _ => cases hd

theorem result_set {x : NodeId} {c : String} (h : c = t.globalId ∨ t.contains x = true)
    (value : Value) : (t.set x c value).result = .ok () := by
  unfold set
  by_cases hc : c = t.globalId
  · rw [if_pos hc]
  · obtain ⟨n, hn⟩ := Option.isSome_iff_exists.mp (h.resolve_left hc)
    rw [if_neg hc, hn]
    dsimp only
    split <;> rfl

theorem result_remove {x : NodeId} (hx : t.contains x = true) : (t.remove x).result = .ok () := by
  rw [remove_of_contains hx]

theorem result_setImplicit (hs : t.nodes.Sound) (hlt : t.nodes.cells.length < UInt32.size)
    {m : NodeId} (hm : t.contains m = true) (c : String) (value : Value) :
    (t.setImplicit m c value).result = .ok () := by
  obtain ⟨n, hn⟩ := Option.isSome_iff_exists.mp hm
  rw [setImplicit, hn]
  dsimp only
  cases hi : t.implicit? n with
  | some i => exact result_set (Or.inr (Option.filter_eq_some_iff.mp hi).2) value
  | none =>
    -- the scope that was made just now is there to be written to
    have hle := Arena.length_alloc_le t.nodes { parent := n.parent }
    apply result_set (Or.inr _) value
    refine (contains_modify ..).trans ?_
    exact (contains_alloc hs (by omega)).mpr (Or.inl (Arena.alloc_fst ..))

theorem result_clearImplicit {m : NodeId} (hm : t.contains m = true) :
    (t.clearImplicit m).result = .ok () := by
  obtain ⟨n, hn⟩ := Option.isSome_iff_exists.mp hm
  rw [clearImplicit, hn]
  dsimp only
  cases hi : t.implicit? n with
  | some i =>
    refine result_remove ((contains_modify ..).trans ?_)
    exact (Option.filter_eq_some_iff.mp hi).2
  | none => rfl

/-- A call that there is no reason to refuse is answered, if it returns. -/
theorem call_of_not_refuses (hs : t.nodes.Sound) (hlt : t.nodes.cells.length < UInt32.size)
    {c : Call} (h : ∀ e, ¬ t.Refuses c e) (hends : (t.call c).ends = true) :
    ∃ answer, (t.call c).result = .ok answer := by
  have hnode : ∀ x, c.node? = some x → ¬ c.SetsGlobal t.globalId → t.contains x = true :=
    fun x hx hg => by_contra fun hgone => h _ (.node hx hgone hg)
  cases c with
  | addRoot => exact ⟨_, rfl⟩
  | unsubscribe id => exact ⟨_, rfl⟩
  | addChild p =>
    obtain ⟨n, hn⟩ := Option.isSome_iff_exists.mp (hnode p rfl id)
    exact ⟨.node t.nodes.nextId,
      by simp [call, addChild, hn, Outcome.map, Except.map, Arena.alloc_fst]⟩
  | remove x =>
    exact ⟨.done, by simp [call, Outcome.map, result_remove (hnode x rfl id), Except.map]⟩
  | set x c value =>
    have hx : c = t.globalId ∨ t.contains x = true := by
      by_cases hc : c = t.globalId
      · exact Or.inl hc
      · exact Or.inr (hnode x rfl hc)
    exact ⟨.done, by simp [call, Outcome.map, result_set hx, Except.map]⟩
  | setAt x c path value =>
    obtain ⟨n, hn⟩ := Option.isSome_iff_exists.mp (hnode x rfl id)
    cases ho : t.lookup x c with
    | found owner => exact ⟨.done, by simp [call, setAt, hn, ho, Outcome.map, Except.map]⟩
    | missing => exact absurd (.context rfl rfl (hnode x rfl id) ho) (h (.contextNotFound x c))
    | endless => simp [call, setAt, hn, ho, Outcome.map, stuck] at hends
  | setImplicit m c value =>
    exact ⟨.done,
      by simp [call, Outcome.map, result_setImplicit hs hlt (hnode m rfl id), Except.map]⟩
  | clearImplicit m =>
    exact ⟨.done, by simp [call, Outcome.map, result_clearImplicit (hnode m rfl id), Except.map]⟩
  | observe x e =>
    obtain ⟨n, hn⟩ := Option.isSome_iff_exists.mp (hnode x rfl id)
    exact ⟨.observer t.nextObserver, by simp [call, observe, hn, Outcome.map, Except.map]⟩
  | observeContext x c =>
    obtain ⟨n, hn⟩ := Option.isSome_iff_exists.mp (hnode x rfl id)
    cases ho : t.lookup x c with
    | found owner =>
      exact ⟨.observer t.nextObserver,
        by simp [call, observeContext, hn, ho, Outcome.map, Except.map]⟩
    | missing => exact absurd (.context rfl rfl (hnode x rfl id) ho) (h (.contextNotFound x c))
    | endless => simp [call, observeContext, hn, ho, Outcome.map, stuck] at hends

/-- **A call is refused exactly when there is a reason.** -/
theorem returned?_call_eq_error_iff (hs : t.nodes.Sound)
    (hlt : t.nodes.cells.length < UInt32.size) {c : Call} {e : ScopeError} :
    (t.call c).returned? = some (.error e) ↔ t.Refuses c e := by
  refine ⟨fun he => ?_, fun h => (call_of_refuses h).1⟩
  by_cases hany : ∃ e', t.Refuses c e'
  · obtain ⟨e', h⟩ := hany
    obtain rfl : e' = e :=
      Except.error.inj (Option.some.inj ((call_of_refuses h).1.symm.trans he))
    exact h
  · obtain ⟨hends, hresult⟩ := Outcome.returned?_eq_some_iff.mp he
    obtain ⟨answer, ha⟩ := call_of_not_refuses hs hlt (not_exists.mp hany) hends
    rw [ha] at hresult
    cases hresult

/-! ## Calls that return -/

/-- Every lookup ends. -/
def Settled (t : Tree) : Prop :=
  ∀ x c, (t.lookup x c).ends = true

section Settled

variable {u : Tree}

theorem settled_of_forest (h : Forest t.nodes) : t.Settled :=
  lookup_ends h

theorem Settled.of_alike (h : u.Settled) (ha : Alike t u) : t.Settled := fun x c => by
  rw [← ha.lookup]
  exact h x c

theorem Settled.settles (h : t.Settled) (x : NodeId) (cs : List String) :
    t.settles x cs = true :=
  List.all_eq_true.mpr fun c _ => h x c

theorem Settled.tellEnds (h : t.Settled) (w : Watch) : t.tellEnds w = true := by
  unfold Tree.tellEnds
  split
  · exact h.settles _ _
  · rfl

theorem Settled.fireEnds (h : t.Settled) (id : ObserverId) : t.fireEnds id = true := by
  unfold Tree.fireEnds
  split
  · rfl
  · rw [h.settles, h.tellEnds, Bool.and_self]

theorem Settled.notifyEnds (h : t.Settled) (T : Target) : t.notifyEnds T = true := by
  unfold Tree.notifyEnds
  split
  · rfl
  · refine List.all_eq_true.mpr fun id _ => ?_
    split
    · rfl
    · exact h.tellEnds _

theorem Settled.rebindEnds (h : t.Settled) (ids : List ObserverId) : t.rebindEnds ids = true := by
  induction ids generalizing t with
  | nil => rfl
  | cons id ids ih =>
    rw [Tree.rebindEnds]
    split
    · exact ih h
    · rename_i w _
      dsimp only
      rw [h.settles, Bool.true_and]
      split
      · exact ih h
      · exact ih (h.of_alike (alike_move t w _).symm)

theorem ends_set {x : NodeId} {c : String} {value : Value}
    (h : (t.set x c value).tree.Settled) : (t.set x c value).ends = true := by
  obtain hs | ⟨T, -, -, -, -, hs⟩ | ⟨-, -, -, hs⟩ := t.set_cases x c value <;> rw [hs] at h ⊢
  · rfl
  · exact h.notifyEnds T
  · have hadded := h.of_alike (alike_rebindWhere (t.addContext x c value) _)
    exact Bool.and_eq_true_iff.mpr ⟨hadded.rebindEnds _, h.notifyEnds _⟩

theorem ends_remove {x : NodeId} (h : (t.remove x).tree.Settled) :
    (t.remove x).ends = true := by
  by_cases hx : t.contains x = true
  · rw [remove_of_contains hx] at h ⊢
    have hleft := h.of_alike (alike_rebindWhere (t.without x) _)
    exact Bool.and_eq_true_iff.mpr
      ⟨hleft.rebindEnds _, List.all_eq_true.mpr fun id _ => h.fireEnds id⟩
  · rw [remove, node?_of_not_contains hx]
    rfl

theorem ends_setAt {x : NodeId} {c : String} {path : Path} {value : Value} (ht : t.Settled)
    (hu : (t.setAt x c path value).tree.Settled) : (t.setAt x c path value).ends = true := by
  have hlookup := ht x c
  unfold setAt at hu ⊢
  cases hn : t.node? x with
  | none => rfl
  | some n =>
    cases ho : t.lookup x c with
    | found owner =>
      rw [hn, ho] at hu
      exact hu.notifyEnds _
    | missing => rfl
    | endless =>
      rw [ho] at hlookup
      cases hlookup

theorem ends_setImplicit {m : NodeId} {c : String} {value : Value}
    (hu : (t.setImplicit m c value).tree.Settled) : (t.setImplicit m c value).ends = true := by
  obtain h | ⟨i, -, -, h⟩ | ⟨-, -, h⟩ := t.setImplicit_cases m c value <;> rw [h] at hu ⊢
  · rfl
  · exact ends_set hu
  · exact ends_set hu

theorem ends_clearImplicit {m : NodeId} (hu : (t.clearImplicit m).tree.Settled) :
    (t.clearImplicit m).ends = true := by
  obtain h | ⟨i, -, -, h⟩ | ⟨-, -, h⟩ := t.clearImplicit_cases m <;> rw [h] at hu ⊢
  · rfl
  · exact ends_remove hu

theorem ends_observe (x : NodeId) (e : Expr) (ht : t.Settled) : (t.observe x e).ends = true := by
  unfold observe
  cases t.node? x with
  | none => rfl
  | some n => exact Bool.and_eq_true_iff.mpr ⟨ht.settles x _, ht.settles x _⟩

theorem ends_observeContext (x : NodeId) (c : String) (ht : t.Settled) :
    (t.observeContext x c).ends = true := by
  have hlookup := ht x c
  unfold observeContext
  cases t.node? x with
  | none => rfl
  | some n =>
    cases ho : t.lookup x c with
    | found owner => rfl
    | missing => rfl
    | endless =>
      rw [ho] at hlookup
      cases hlookup

/-- **A call returns** if every lookup ends before it and after it. -/
theorem ends_call {c : Call} (ht : t.Settled) (hu : (t.call c).tree.Settled) :
    (t.call c).ends = true := by
  cases c with
  | addRoot => rfl
  | addChild p =>
    obtain h | ⟨-, h⟩ := t.addChild_cases p <;> rw [call, h] <;> rfl
  | remove x => exact ends_remove hu
  | set x c value => exact ends_set hu
  | setAt x c path value => exact ends_setAt ht hu
  | setImplicit m c value => exact ends_setImplicit hu
  | clearImplicit m => exact ends_clearImplicit hu
  | observe x e => exact ends_observe x e ht
  | observeContext x c => exact ends_observeContext x c ht
  | unsubscribe id => rfl

end Settled

end Tree

/-! ## Runs -/

/-- **Calls are refused exactly when they should be, and leave everything as it was then**: in every
tree that a run leaves, a call returns with an error if and only if the node that it is about is not
there, unless it sets the global context, or the lookup for the context that it needs ends without
it. Then the tree stays the same in all its parts and nobody is told anything. No call is refused
half way. Every call returns as long as no cell is vacated so often that its generations begin
again; where that has happened the lookup may never end, and then the call never returns. -/
theorem Run.refused_iff {log : List Exchange} {globalId : String} {value : Value}
    {registry : Registry} (h : Run AnyCall (.new globalId value registry) log t)
    (hlt : t.nodes.cells.length < UInt32.size) (c : Call) :
    (∀ e, (t.call c).returned? = some (.error e) ↔ t.Refuses c e) ∧
      (∀ e, (t.call c).returned? = some (.error e) →
        (t.call c).tree = t ∧ (t.call c).trace.deliveries = []) ∧
      t.callStepwise c = t.call c ∧
      ((t.call c).tree.nodes.cells.length < UInt32.size → (t.call c).tree.nodes.Lasting →
        (t.call c).returned? = some (t.call c).result) ∧
      (∀ x d, c.node? = some x → c.sought? = some d → t.contains x = true →
        t.lookup x d = .endless → (t.call c).returned? = none) := by
  have hs := (h.coherent hlt).sound
  have hiff := fun e => Tree.returned?_call_eq_error_iff hs hlt (c := c) (e := e)
  refine ⟨hiff, fun e he => (Tree.call_of_refuses ((hiff e).mp he)).2,
    Tree.callStepwise_eq hs hlt c, fun hlt' hl => ?_, fun _ _ => Tree.returned?_of_endless⟩
  have hold := (t.grows_call c).lasting (Nat.le_of_lt hlt) hl
  have ht := Tree.settled_of_forest (h.forest hlt hold).1
  have hu := Tree.settled_of_forest ((Run.call c h trivial).forest hlt' hl).1
  exact Outcome.returned?_eq_some_iff.mpr ⟨Tree.ends_call ht hu, rfl⟩

/-- For instance where a node still names an implicit scope that was removed by its identity: from
there a context above is not visible. -/
theorem Run.refused_iff_of_removed_scope :
    let t := removedScope.2
    let c := Call.setAt ⟨1, 0⟩ "a" [] .null
    t.nodes.cells.length < UInt32.size ∧ t.Refuses c (.contextNotFound ⟨1, 0⟩ "a") ∧
      (t.call c).returned? = some (.error (.contextNotFound ⟨1, 0⟩ "a")) ∧ (t.call c).tree = t ∧
      (t.call c).trace.deliveries = [] ∧ t.callStepwise c = t.call c := by
  intro t c
  have hcells : removedScope.2.nodes.cells.length = 3 := by cbv
  have hlive : removedScope.2.contains ⟨1, 0⟩ = true := by cbv
  have hlookup : removedScope.2.lookup ⟨1, 0⟩ "a" = .missing := by cbv
  have hlt : t.nodes.cells.length < UInt32.size := by
    rw [hcells]
    decide
  have hrefuses : t.Refuses c (.contextNotFound ⟨1, 0⟩ "a") := .context rfl rfl hlive hlookup
  obtain ⟨hiff, hsame, hsteps, -⟩ := Run.refused_iff run_removedScope hlt c
  have hresult := (hiff _).mpr hrefuses
  obtain ⟨htree, htold⟩ := hsame _ hresult
  exact ⟨hlt, hrefuses, hresult, htree, htold, hsteps⟩

end DataBinding.Scope
