import DataBinding.Expr.Eval
import DataBinding.Proofs.Operation.Unbroken

/-!
# What evaluation reports

Nothing that goes wrong is passed over. An expression is walked from left to right, each call after
its arguments, and every place where a context or an operation is missing, or where a call fails,
leaves one event, which tells what is wrong at that place alone. What failed counts as `null` for
what stands around it, and the walk goes on.

* `Arg.value`, `Expr.value`: what an expression stands for, by itself.
* `Expr.places`: the references and calls of an expression, in the order of the walk.
* `Env.report?`: what is wrong at one place, if anything.
* `Expr.eval_reports`: evaluation has that value, and reports what is wrong, place by place.
-/

namespace DataBinding

/-! ## What an expression stands for -/

/-- The value that a reference leads to, `null` without its context. -/
def Binding.value (env : Env) (b : Binding) : Value :=
  ((env.contexts b.context).map (·.valueAt b.path)).getD .null

/-- The result of an operation, `null` if there is none. -/
def Registry.value (r : Registry) (name : String) (params : List Value) : Value :=
  (r.call name params).toOption.getD .null

mutual

/-- What an argument stands for. -/
def Arg.value (env : Env) : Arg → Value
  | .literal v => v
  | .binding b => b.value env
  | .call name args => env.registry.value name (Arg.values env args)

/-- What arguments stand for. -/
def Arg.values (env : Env) : List Arg → List Value
  | [] => []
  | a :: as => a.value env :: Arg.values env as

end

/-- The text that a piece stands for. -/
def Piece.value (env : Env) : Piece → String
  | .text s => s
  | .interpolation i => (i.toArg.value env).text

/-- What an expression stands for. -/
def Expr.value (env : Env) : Expr → Value
  | .literal v => v
  | .single i => i.toArg.value env
  | .template [] => .null
  | .template pieces => .string (String.join (pieces.map (Piece.value env)))

/-! ## The walk -/

mutual

/-- The references and calls in an argument, itself at the end. -/
def Arg.places : Arg → List Arg
  | .literal _ => []
  | .binding b => [.binding b]
  | .call name args => Arg.placesAll args ++ [.call name args]

/-- The references and calls in arguments, from left to right. -/
def Arg.placesAll : List Arg → List Arg
  | [] => []
  | a :: as => a.places ++ Arg.placesAll as

end

/-- The references and calls in a piece. -/
def Piece.places : Piece → List Arg
  | .text _ => []
  | .interpolation i => i.toArg.places

/-- The references and calls in an expression, from left to right, each call after its arguments. -/
def Expr.places : Expr → List Arg
  | .literal _ => []
  | .single i => i.toArg.places
  | .template pieces => pieces.flatMap Piece.places

/-- An event as it is logged: how grave it is, what happened, and the particulars by name. -/
structure Report where
  level : Level
  message : String
  fields : List (String × String)
  deriving Repr, DecidableEq

/-- The event as it is logged. -/
def Event.report (e : Event) : Report :=
  ⟨e.level, e.message, e.fields⟩

/-- What is wrong at one place. -/
def Env.report? (env : Env) : Arg → Option Report
  | .literal _ => none
  | .binding b =>
    if (env.contexts b.context).isSome then none
    else some ⟨.debug, "context not found", [("context", b.context)]⟩
  | .call name args =>
    if env.registry.contains name then
      match env.registry.call name (Arg.values env args) with
      | .ok _ => none
      | .error e =>
        some ⟨.debug, "operation evaluated to null", [("operation", name), ("error", e.message)]⟩
    else some ⟨.warn, "operation not found", [("operation", name)]⟩

/-- What is wrong in an expression, in the order of the walk. -/
def Expr.reports (env : Env) : Expr → List Report
  | .template [] => [⟨.debug, "empty expression evaluates to null", []⟩]
  | e => e.places.filterMap env.report?

/-- No function of the registry says that an operation is missing, on any number of parameters that
its operation takes. -/
def Registry.OwnErrors (r : Registry) : Prop :=
  ∀ name op, r.get? name = some op → ∀ params, op.arity.accepts params.length = true →
    ∀ missing, op.run params ≠ .error (.notFound missing)

theorem Registry.ownErrors_builtin : builtin.OwnErrors :=
  fun _ _ hop _ haccepts missing => run_builtin_ne_notFound hop haccepts missing

/-! ## Evaluation -/

variable {α β : Type} {env : Env}

/-- The evaluation gives the value, and reports what is wrong at the places. -/
structure Evaluated.Tells (env : Env) (places : List Arg) (x : Evaluated α) (v : α) : Prop where
  value : x.value = v
  events : x.events.map Event.report = places.filterMap env.report?

namespace Evaluated

theorem tells_pure (v : α) : Tells env [] (pure v) v :=
  ⟨rfl, rfl⟩

/-- One evaluation after the other. -/
theorem Tells.bind {x : Evaluated α} {f : α → Evaluated β} {v : α} {w : β} {ps qs : List Arg}
    (hx : Tells env ps x v) (hf : Tells env qs (f v) w) : Tells env (ps ++ qs) (x >>= f) w := by
  obtain ⟨rfl, hps⟩ := hx
  obtain ⟨rfl, hqs⟩ := hf
  refine ⟨rfl, ?_⟩
  rw [List.filterMap_append, ← hps, ← hqs, ← List.map_append]
  rfl

/-- An evaluation whose value is put to use. -/
theorem Tells.map {x : Evaluated α} {v : α} {ps : List Arg} (hx : Tells env ps x v) (f : α → β) :
    Tells env ps (do let a ← x; pure (f a)) (f v) := by
  have h := hx.bind (f := fun a => pure (f a)) (tells_pure (f v))
  rwa [List.append_nil] at h

end Evaluated

open Evaluated (Tells tells_pure)

theorem Binding.tells_eval (b : Binding) : Tells env [.binding b] (b.eval env) (b.value env) := by
  cases h : env.contexts b.context with
  | none => constructor <;> simp [eval, value, Env.report?, Event.report, Event.level,
      Event.message, Event.fields, h]
  | some v => constructor <;> simp [eval, value, Env.report?, h]

/-- The failure of a registered operation is not that it is missing. -/
theorem Registry.OwnErrors.call_ne (h : env.registry.OwnErrors) {name : String} {op : Operation}
    (hop : env.registry.get? name = some op) (params : List Value) (missing : String) :
    env.registry.call name params ≠ .error (.notFound missing) := by
  rw [call, hop]
  change (checkArity op.name op.arity params.length).bind _ ≠ _
  rw [checkArity]
  split
  · rename_i haccepts
    exact h name op hop params haccepts missing
  · intro heq
    cases heq

theorem Registry.tells_eval (h : env.registry.OwnErrors) (name : String) (args : List Arg) :
    Tells env [.call name args] (env.registry.eval name (Arg.values env args))
      (env.registry.value name (Arg.values env args)) := by
  cases hop : env.registry.get? name with
  | none =>
    have hcall : env.registry.call name (Arg.values env args) = .error (.notFound name) := by
      rw [call, hop]
    have hname : env.registry.contains name = false := by
      rw [contains, Entries.contains]
      exact Option.isSome_eq_false_iff.mpr (Option.isNone_iff_eq_none.mpr hop)
    constructor
    · rw [eval, value, hcall]
      rfl
    · rw [eval, hcall, List.filterMap_cons, Env.report?, hname]
      rfl
  | some op =>
    have hname : env.registry.contains name = true := Option.isSome_of_eq_some hop
    cases hcall : env.registry.call name (Arg.values env args) with
    | ok v =>
      constructor
      · rw [eval, value, hcall]
        rfl
      · rw [eval, hcall, List.filterMap_cons, Env.report?, hname, if_pos rfl, hcall]
        rfl
    | error e =>
      have hne : ∀ missing, e ≠ .notFound missing := by
        rintro missing rfl
        exact h.call_ne hop _ missing hcall
      have heval : env.registry.eval name (Arg.values env args) =
          ⟨.null, [], [.operationFailed name e]⟩ := by
        rw [eval, hcall]
        cases e <;> first | rfl | exact absurd rfl (hne _)
      constructor
      · rw [heval, value, hcall]
        rfl
      · rw [heval, List.filterMap_cons, Env.report?, hname, if_pos rfl, hcall]
        rfl

mutual

theorem Arg.tells_eval (h : env.registry.OwnErrors) (a : Arg) :
    Tells env a.places (a.eval env) (a.value env) := by
  match a with
  | .literal v =>
    rw [Arg.places, Arg.eval, Arg.value]
    exact tells_pure v
  | .binding b =>
    rw [Arg.places, Arg.eval, Arg.value]
    exact b.tells_eval
  | .call name args =>
    rw [Arg.places, Arg.eval, Arg.value]
    exact (Arg.tells_evalAll h args).bind (Registry.tells_eval h name args)

theorem Arg.tells_evalAll (h : env.registry.OwnErrors) (as : List Arg) :
    Tells env (Arg.placesAll as) (Arg.evalAll env as) (Arg.values env as) := by
  match as with
  | [] =>
    rw [Arg.placesAll, Arg.evalAll, Arg.values]
    exact tells_pure []
  | a :: as =>
    rw [Arg.placesAll, Arg.evalAll, Arg.values]
    exact (Arg.tells_eval h a).bind ((Arg.tells_evalAll h as).map _)

end

theorem Piece.tells_eval (h : env.registry.OwnErrors) (p : Piece) :
    Tells env p.places (p.eval env) (p.value env) := by
  cases p with
  | text s => exact tells_pure s
  | interpolation i => exact (Arg.tells_eval h i.toArg).map Value.text

theorem Piece.tells_evalAll (h : env.registry.OwnErrors) (ps : List Piece) :
    Tells env (ps.flatMap Piece.places) (Piece.evalAll env ps)
      (String.join (ps.map (Piece.value env))) := by
  induction ps with
  | nil => exact tells_pure ""
  | cons p ps ih =>
    rw [List.flatMap_cons, List.map_cons, Piece.evalAll, String.join_cons]
    exact (p.tells_eval h).bind (ih.map _)

/-- **Nothing that goes wrong is passed over.** Where no function says that an operation is missing,
evaluation has the value that the expression stands for, and leaves one event for every place where
a context or an operation is missing or a call fails, in the order of the walk, and no other; but
one for the empty template. -/
theorem Expr.eval_reports (e : Expr) (h : env.registry.OwnErrors) :
    (e.eval env).value = e.value env ∧ (e.eval env).events.map Event.report = e.reports env := by
  match e with
  | .literal v => exact ⟨rfl, rfl⟩
  | .single i =>
    have htells := Arg.tells_eval h i.toArg
    exact ⟨htells.value, htells.events⟩
  | .template [] => exact ⟨rfl, rfl⟩
  | .template (p :: ps) =>
    have htells := (Piece.tells_evalAll h (p :: ps)).map Value.string
    exact ⟨htells.value, htells.events⟩

/-- Failures at several depths: the division fails inside the call that is not registered, which
fails inside the sum; and a context is missing on either side of them. -/
theorem Expr.eval_reports_of_nested :
    let e : Expr := .template [.interpolation (.binding ⟨"lost", []⟩),
      .interpolation (.call "sum" [.call "foo" [.binding ⟨"gone", []⟩, .call "divide"
        [.literal (.int 1), .literal (.int 0)]], .binding ⟨"n", []⟩, .binding ⟨"lost", []⟩]),
      .text "-", .interpolation (.call "isNull" [.call "not" []])]
    let env : Env := ⟨fun c => if c = "n" then some (.int 1) else none, .builtin⟩
    (e.eval env).value.text = "-true" ∧ (e.eval env).events.map Event.report =
      [⟨.debug, "context not found", [("context", "lost")]⟩,
       ⟨.debug, "context not found", [("context", "gone")]⟩,
       ⟨.debug, "operation evaluated to null",
         [("operation", "divide"), ("error", "DIVISION_BY_ZERO")]⟩,
       ⟨.warn, "operation not found", [("operation", "foo")]⟩,
       ⟨.debug, "context not found", [("context", "lost")]⟩,
       ⟨.debug, "operation evaluated to null",
         [("operation", "sum"), ("error", "parameter 0 has unsupported kind null")]⟩,
       ⟨.debug, "operation evaluated to null",
         [("operation", "not"), ("error", "\"not\" expects 1 parameters, got 0")]⟩] := by
  intro e env
  have hown : env.registry.OwnErrors := Registry.ownErrors_builtin
  obtain ⟨hvalue, hevents⟩ := e.eval_reports hown
  rw [hvalue, hevents]
  decide

end DataBinding
