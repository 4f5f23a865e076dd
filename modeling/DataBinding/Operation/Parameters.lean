import DataBinding.Number
import DataBinding.Operation.Halt

/-!
# Reading parameters

Built-in operations read their parameters from left to right; the first that has the wrong kind is
the one reported.

In the interface: `expect_str`, `expect_array`, `expect_bool` and `expect_index`.
-/

namespace DataBinding.Params

/-- Every parameter, read in the same way; `i` counts those before. -/
def readAll {α : Type} (read : Value → Option α) (i : Nat) : List Value → Guarded (List α)
  | [] => .ok []
  | p :: ps =>
    match read p with
    | none => Guarded.fail (.invalidParameter i p.kind)
    | some a => (readAll read (i + 1) ps).map (a :: ·)

/-- The parameter at `i`. -/
def param (ps : List Value) (i : Nat) : Guarded Value :=
  match ps[i]? with
  | none => Guarded.breach (.parameter i ps.length)
  | some p => .ok p

/-- The parameter at `i`, of the kind that `read` accepts. -/
def read {α : Type} (read : Value → Option α) (ps : List Value) (i : Nat) : Guarded α :=
  (param ps i).bind fun p =>
    match read p with
    | none => Guarded.fail (.invalidParameter i p.kind)
    | some a => .ok a

/-- The parameter at `i` as a position or a length: an integer, or a text that spells one. None is
negative. -/
def index (ps : List Value) (i : Nat) : Guarded Nat :=
  (param ps i).bind fun p =>
    match p.number? with
    | some (.int n) => if n.toInt < 0 then Guarded.fail .outOfBounds else .ok n.toInt.toNat
    | _ => Guarded.fail (.invalidParameter i p.kind)

/-- The parameter at `i` as a position or a length, `default` if there is none. -/
def indexD (ps : List Value) (i : Nat) (default : Guarded Nat) : Guarded Nat :=
  match ps[i]? with
  | some _ => index ps i
  | none => default

end DataBinding.Params
