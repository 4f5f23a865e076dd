import DataBinding.Expr.Eval

/-!
# Evaluation reads the contexts that an expression refers to

* `Expr.eval_congr`: where these have the same values, evaluation is the same, with all that it
  looks up and reports.
* `Expr.reads_eval`: evaluation looks up each of them once for every reference, in order.
* `Expr.eval_only_bindings`: both, and what they say of an expression without references.
-/

namespace DataBinding

variable {env env' : Env}

theorem Binding.eval_congr {b : Binding} (h : env'.contexts b.context = env.contexts b.context) :
    b.eval env' = b.eval env := by
  rw [Binding.eval, Binding.eval, h]

mutual

theorem Arg.eval_congr (hr : env'.registry = env.registry) (a : Arg)
    (h : ∀ b ∈ a.bindings, env'.contexts b.context = env.contexts b.context) :
    a.eval env' = a.eval env := by
  match a with
  | .literal v => rw [Arg.eval, Arg.eval]
  | .binding b =>
    rw [Arg.eval, Arg.eval]
    exact Binding.eval_congr (h b (by rw [Arg.bindings]; exact List.mem_singleton_self b))
  | .call name args =>
    rw [Arg.bindings] at h
    rw [Arg.eval, Arg.eval, Arg.evalAll_congr hr args h, hr]

theorem Arg.evalAll_congr (hr : env'.registry = env.registry) (as : List Arg)
    (h : ∀ b ∈ Arg.bindingsAll as, env'.contexts b.context = env.contexts b.context) :
    Arg.evalAll env' as = Arg.evalAll env as := by
  match as with
  | [] => rw [Arg.evalAll, Arg.evalAll]
  | a :: as =>
    rw [Arg.bindingsAll] at h
    rw [Arg.evalAll, Arg.evalAll, Arg.eval_congr hr a fun b hb => h b (List.mem_append_left _ hb),
      Arg.evalAll_congr hr as fun b hb => h b (List.mem_append_right _ hb)]

end

theorem Piece.eval_congr (hr : env'.registry = env.registry) {p : Piece}
    (h : ∀ b ∈ p.bindings, env'.contexts b.context = env.contexts b.context) :
    p.eval env' = p.eval env := by
  cases p with
  | text s => rfl
  | interpolation i =>
    rw [Piece.eval, Piece.eval, Interpolation.eval, Interpolation.eval, Arg.eval_congr hr i.toArg h]

theorem Piece.evalAll_congr (hr : env'.registry = env.registry) {ps : List Piece}
    (h : ∀ b ∈ ps.flatMap Piece.bindings, env'.contexts b.context = env.contexts b.context) :
    Piece.evalAll env' ps = Piece.evalAll env ps := by
  induction ps with
  | nil => rfl
  | cons p ps ih =>
    rw [List.flatMap_cons] at h
    rw [Piece.evalAll, Piece.evalAll,
      Piece.eval_congr hr fun b hb => h b (List.mem_append_left _ hb),
      ih fun b hb => h b (List.mem_append_right _ hb)]

/-- **Evaluation reads the contexts that the expression refers to**, and nothing else but the
registry. -/
theorem Expr.eval_congr (hr : env'.registry = env.registry) {e : Expr}
    (h : ∀ b ∈ e.bindings, env'.contexts b.context = env.contexts b.context) :
    e.eval env' = e.eval env := by
  cases e with
  | literal v => rfl
  | single i => exact Arg.eval_congr hr i.toArg h
  | template ps =>
    cases ps with
    | nil => rfl
    | cons p ps =>
      rw [Expr.eval, Expr.eval, Piece.evalAll_congr hr h]
      · exact List.cons_ne_nil p ps
      · exact List.cons_ne_nil p ps

/-! ## What is looked up -/

theorem Evaluated.reads_bind {α β : Type} (x : Evaluated α) (f : α → Evaluated β) :
    (x >>= f).reads = x.reads ++ (f x.value).reads :=
  rfl

theorem Evaluated.reads_pure {α : Type} (a : α) : (pure a : Evaluated α).reads = [] :=
  rfl

theorem Binding.reads_eval (env : Env) (b : Binding) : (b.eval env).reads = [b.context] := by
  unfold Binding.eval
  split <;> rfl

/-- Operations look up nothing. -/
theorem Registry.reads_eval (r : Registry) (name : String) (params : List Value) :
    (r.eval name params).reads = [] := by
  unfold Registry.eval
  split <;> rfl

mutual

theorem Arg.reads_eval (env : Env) (a : Arg) :
    (a.eval env).reads = a.bindings.map (·.context) := by
  match a with
  | .literal v => rw [Arg.eval, Arg.bindings, Evaluated.reads_pure, List.map_nil]
  | .binding b => rw [Arg.eval, Arg.bindings, Binding.reads_eval, List.map_singleton]
  | .call name args =>
    rw [Arg.eval, Arg.bindings, Evaluated.reads_bind, Arg.reads_evalAll env args,
      Registry.reads_eval, List.append_nil]

theorem Arg.reads_evalAll (env : Env) (as : List Arg) :
    (Arg.evalAll env as).reads = (Arg.bindingsAll as).map (·.context) := by
  match as with
  | [] => rw [Arg.evalAll, Arg.bindingsAll, Evaluated.reads_pure, List.map_nil]
  | a :: as =>
    rw [Arg.evalAll, Arg.bindingsAll, Evaluated.reads_bind, Evaluated.reads_bind,
      Evaluated.reads_pure, List.append_nil, Arg.reads_eval env a, Arg.reads_evalAll env as,
      List.map_append]

end

theorem Piece.reads_eval (env : Env) (p : Piece) :
    (p.eval env).reads = p.bindings.map (·.context) := by
  cases p with
  | text s => rfl
  | interpolation i =>
    rw [Piece.eval, Evaluated.reads_bind, Evaluated.reads_pure, List.append_nil]
    exact Arg.reads_eval env i.toArg

theorem Piece.reads_evalAll (env : Env) (ps : List Piece) :
    (Piece.evalAll env ps).reads = (ps.flatMap Piece.bindings).map (·.context) := by
  induction ps with
  | nil => rfl
  | cons p ps ih =>
    rw [Piece.evalAll, Evaluated.reads_bind, Evaluated.reads_bind, Evaluated.reads_pure,
      List.append_nil, Piece.reads_eval, ih, List.flatMap_cons, List.map_append]

/-- **Evaluation looks up the contexts that the expression refers to**, one for each reference, in
the order of the references. -/
theorem Expr.reads_eval (env : Env) (e : Expr) :
    (e.eval env).reads = e.bindings.map (·.context) := by
  cases e with
  | literal v => rfl
  | single i => exact Arg.reads_eval env i.toArg
  | template ps =>
    cases ps with
    | nil => rfl
    | cons p ps =>
      rw [Expr.eval, Evaluated.reads_bind, Evaluated.reads_pure, List.append_nil,
        Piece.reads_evalAll]
      · rfl
      · exact List.cons_ne_nil p ps

theorem Expr.bindings_eq_nil {e : Expr} (h : e.isDynamic = false) : e.bindings = [] := by
  unfold Expr.isDynamic at h
  rwa [Bool.not_eq_false', List.isEmpty_iff] at h

/-- **Evaluation reads only what the references list**: resolvers that agree on them give the same
evaluation, an expression without any has one evaluation for all, and whatever the answers are, the
contexts are asked for as they are listed. -/
theorem Expr.eval_only_bindings (e : Expr) (registry : Registry) :
    (∀ contexts contexts' : String → Option Value,
        (∀ c ∈ e.bindings.map (·.context), contexts' c = contexts c) →
          e.eval ⟨contexts', registry⟩ = e.eval ⟨contexts, registry⟩) ∧
      (e.isDynamic = false → ∀ contexts contexts' : String → Option Value,
        e.eval ⟨contexts', registry⟩ = e.eval ⟨contexts, registry⟩) ∧
      ∀ contexts : String → Option Value,
        (e.eval ⟨contexts, registry⟩).reads = e.bindings.map (·.context) := by
  refine ⟨fun contexts contexts' h => ?_, fun hd contexts contexts' => ?_,
    fun contexts => e.reads_eval _⟩
  · refine Expr.eval_congr ?_ fun b hb => h b.context (List.mem_map_of_mem hb)
    rfl
  · refine Expr.eval_congr ?_ fun b hb => ?_
    · rfl
    · rw [Expr.bindings_eq_nil hd] at hb
      exact absurd hb List.not_mem_nil

/-- For instance with a reference inside a call that is an argument itself, an operation that is not
there, and a context of one of the resolvers that is not referred to. -/
theorem Expr.eval_only_bindings_of_nested :
    let e : Expr := .template [.interpolation (.binding ⟨"a", []⟩), .text "-", .interpolation
      (.call "sum" [.call "lost" [.binding ⟨"b", []⟩], .binding ⟨"a", []⟩])]
    let contexts : String → Option Value := fun c => if c = "a" then some (.bool true) else none
    let contexts' : String → Option Value := fun c =>
      if c = "a" ∨ c = "z" then some (.bool true) else none
    e.bindings.map (·.context) = ["a", "b", "a"] ∧ contexts' "z" ≠ contexts "z" ∧
      e.eval ⟨contexts', .builtin⟩ = e.eval ⟨contexts, .builtin⟩ ∧
      (e.eval ⟨contexts, .builtin⟩).reads = ["a", "b", "a"] := by
  intro e contexts contexts'
  have hlist : e.bindings.map (·.context) = ["a", "b", "a"] := by cbv
  obtain ⟨hsame, -, hreads⟩ := e.eval_only_bindings .builtin
  refine ⟨hlist, ?_, hsame contexts contexts' fun c hc => ?_, (hreads contexts).trans hlist⟩
  · simp [contexts, contexts']
  · rw [hlist] at hc
    simp at hc
    rcases hc with rfl | rfl | rfl <;> simp [contexts, contexts']

end DataBinding
