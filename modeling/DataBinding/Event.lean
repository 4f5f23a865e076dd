import DataBinding.Expr.Reader
import DataBinding.Operation
import DataBinding.Scope.NodeId
import DataBinding.Value.Access

/-!
# Events

Nothing that goes wrong while expressions are read and evaluated stops the program: it goes on with
`null`, or with the value unchanged. Every such step leaves an event.

* `Event.level`, `Event.message`, `Event.fields`: an event as it is logged.
* `Expr.ofText`, `Expr.ofValue`, `Value.setInPlace`: what leaves events without being evaluated.

In the interface: `parse` and `from_value` for expressions, `set_in_place` for values. Out of scope:
where events are collected.
-/

namespace DataBinding

/-- How grave an event is. -/
inductive Level where
  | debug
  | warn
  deriving Repr, DecidableEq

/-- Something worth telling that stopped nothing. -/
inductive Event where
  /-- A text could not be read; the empty template stands for it. -/
  | malformed (raw : String) (error : ParseError Nat)
  /-- The empty template was evaluated. -/
  | emptyTemplate
  /-- An expression refers to a context that is not visible. -/
  | contextNotFound (context : String)
  | operationNotFound (name : String)
  | operationFailed (name : String) (error : OperationError)
  /-- A write could not reach its path. -/
  | writeIgnored (path : Path)
  | nameRejected (name : String)
  | operationReplaced (name : String)
  /-- An expression is observed before a context that it refers to is visible. -/
  | bindingWaits (node : NodeId) (context : String)
  /-- A node went away with all below it; `rebound` observers were moved. -/
  | nodeRemoved (node : NodeId) (removed rebound : Nat)
  /-- A write into a context that is not visible. -/
  | contextNotVisible (node : NodeId) (context : String)
  deriving Repr, DecidableEq

namespace Event

/-- How grave the event is. -/
def level : Event → Level
  | .malformed .. | .operationNotFound _ | .nameRejected _ | .operationReplaced _
  | .contextNotVisible .. => .warn
  | .emptyTemplate | .contextNotFound _ | .operationFailed .. | .writeIgnored _
  | .bindingWaits .. | .nodeRemoved .. => .debug

/-- What happened, in words. -/
def message : Event → String
  | .malformed .. => "empty expression: malformed interpolation"
  | .emptyTemplate => "empty expression evaluates to null"
  | .contextNotFound _ => "context not found"
  | .operationNotFound _ => "operation not found"
  | .operationFailed .. => "operation evaluated to null"
  | .writeIgnored _ => "ignoring write to unreachable path"
  | .nameRejected _ => "invalid operation name, registration rejected"
  | .operationReplaced _ => "operation re-registered, previous definition replaced"
  | .bindingWaits .. => "binding waits for its context"
  | .nodeRemoved .. => "scope node removed"
  | .contextNotVisible .. => "set at path on a context that is not visible"

/-- The particulars of the event, by name. -/
def fields : Event → List (String × String)
  | .malformed raw error => [("raw", raw), ("error", error.message)]
  | .emptyTemplate => []
  | .contextNotFound context => [("context", context)]
  | .operationNotFound name => [("operation", name)]
  | .operationFailed name error => [("operation", name), ("error", error.message)]
  | .writeIgnored path => [("path", path.render)]
  | .nameRejected name => [("name", name)]
  | .operationReplaced name => [("name", name)]
  | .bindingWaits node context => [("node", node.text), ("context", context)]
  | .nodeRemoved node removed rebound =>
    [("node", node.text), ("removed", s!"{removed}"), ("rebound", s!"{rebound}")]
  | .contextNotVisible node context => [("node", node.text), ("context", context)]

end Event

/-- The expression that a text spells; the empty template, with an event, if it spells none. -/
def Expr.ofText (raw : String) : Expr × List Event :=
  match Expr.parse raw with
  | .ok e => (e, [])
  | .error error => (.template [], [.malformed raw error])

/-- The expression that a value gives: a text is read, any other value is a constant. -/
def Expr.ofValue : Value → Expr × List Event
  | .string raw => Expr.ofText raw
  | v => (.literal v, [])

/-- The value with `x` at the path, whether it could be put there, and the event if it could not. -/
def Value.setInPlace (v : Value) (p : Path) (x : Value) : Value × Bool × List Event :=
  match v.write? p x with
  | some w => (w, true, [])
  | none => (v, false, [.writeIgnored p])

end DataBinding
