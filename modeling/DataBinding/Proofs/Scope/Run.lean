import DataBinding.Proofs.Scope.Calls

/-!
# Runs

A run is a sequence of calls, each on the tree that the one before it left. What is said and told
along the way is the log of the run. Runs are not cut short at a call that never returns; those in
which all calls return are among them.

* `Run.of_calls`: a list of calls makes a run.
* `Run.keeps`: what every call preserves holds after a run.
* `Run.keeps_tree`, `Run.keeps_always`: so does what every change preserves.
-/

namespace DataBinding.Scope

variable {t : Tree}

/-- A call in the past: what it gave back and whom it told what. -/
structure Exchange where
  call : Call
  result : Except ScopeError Answer
  deliveries : List Delivery

/-- What goes into the log of a run for a call. -/
def Tree.exchange (t : Tree) (c : Call) : Exchange :=
  ⟨c, (t.call c).result, (t.call c).trace.deliveries⟩

/-- The tree that a sequence of allowed calls leaves, and their log. -/
inductive Run (allowed : Tree → Call → Prop) (start : Tree) : List Exchange → Tree → Prop where
  | start : Run allowed start [] start
  | call {log : List Exchange} {t : Tree} (c : Call) :
      Run allowed start log t → allowed t c →
        Run allowed start (log ++ [t.exchange c]) (t.call c).tree

/-- The log of a list of calls, and the tree that they leave. -/
def Tree.calls (t : Tree) : List Call → List Exchange × Tree
  | [] => ([], t)
  | c :: cs => (t.exchange c :: ((t.call c).tree.calls cs).1, ((t.call c).tree.calls cs).2)

/-- Every call is allowed. -/
def AnyCall (_ : Tree) (_ : Call) : Prop :=
  True

namespace Run

variable {allowed : Tree → Call → Prop} {start : Tree} {log : List Exchange}

/-- A run that goes on from where another ended. -/
theorem append {u : Tree} {log' : List Exchange} (h : Run allowed start log t)
    (h' : Run allowed t log' u) : Run allowed start (log ++ log') u := by
  induction h' with
  | start =>
    rw [List.append_nil]
    exact h
  | call c _ hc ih =>
    rw [← List.append_assoc]
    exact .call c ih hc

/-- A run goes on with a list of calls. -/
theorem calls (h : Run allowed start log t) {cs : List Call}
    (ha : ∀ t, ∀ c ∈ cs, allowed t c) :
    Run allowed start (log ++ (t.calls cs).1) (t.calls cs).2 := by
  induction cs generalizing log t with
  | nil =>
    rw [Tree.calls, List.append_nil]
    exact h
  | cons c cs ih =>
    have hnext := ih (.call c h (ha t c List.mem_cons_self))
      fun t d hd => ha t d (List.mem_cons_of_mem _ hd)
    rwa [List.append_assoc] at hnext

theorem of_calls {cs : List Call} (ha : ∀ t, ∀ c ∈ cs, allowed t c) :
    Run allowed start (start.calls cs).1 (start.calls cs).2 :=
  Run.start.calls ha

/-- Cells that can be told apart after a run could be so before. -/
theorem cells_lt (h : Run allowed start log t) (hlt : t.nodes.cells.length < UInt32.size) :
    start.nodes.cells.length < UInt32.size := by
  induction h with
  | start => exact hlt
  | call c _ _ ih => exact ih ((Tree.grows_call _ c).cells_lt hlt)

/-- **What the first tree has and every call preserves, every tree of a run has**, as long as the
cells can be told apart. -/
theorem keeps {P : List Exchange → Tree → Prop} (h : Run allowed start log t)
    (hlt : t.nodes.cells.length < UInt32.size) (hstart : P [] start)
    (hcall : ∀ {log t} (c : Call), Run allowed start log t → allowed t c →
      (t.call c).tree.nodes.cells.length < UInt32.size → P log t →
        P (log ++ [t.exchange c]) (t.call c).tree) : P log t := by
  induction h with
  | start => exact hstart
  | @call log t c hr hc ih =>
    exact hcall c hr hc hlt (ih ((t.grows_call c).cells_lt hlt))

/-- What the first tree has and every change preserves, every tree of a run has. -/
theorem keeps_tree {P : Tree → Prop} (h : Run allowed start log t)
    (hlt : t.nodes.cells.length < UInt32.size) (hstart : P start)
    (hchange : ∀ {t c s u}, allowed t c → Change (SparesScopes t c) s u →
      u.nodes.cells.length < UInt32.size → P s → P u) : P t :=
  h.keeps (P := fun _ t => P t) hlt hstart fun _ _ ha hlt ht =>
    Tree.call_induction ht hlt fun hc => hchange ha hc

/-- So does what every change preserves whatever the number of cells. -/
theorem keeps_always {P : Tree → Prop} (h : Run allowed start log t) (hstart : P start)
    (hchange : ∀ {spared s u}, Change spared s u → P s → P u) : P t := by
  induction h with
  | start => exact hstart
  | @call log t c _ _ ih =>
    obtain hsame | hone | ⟨s, hfirst, hsame | hsecond⟩ := t.changes_call c
    · rwa [hsame]
    · exact hchange hone ih
    · rw [hsame]
      exact hchange hfirst ih
    · exact hchange hsecond (hchange hfirst ih)

end Run

end DataBinding.Scope
