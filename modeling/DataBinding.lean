import DataBinding.Scope.Observe
import DataBinding.Value.Reader
import DataBinding.Expr.Printer
import DataBinding.Proofs.Scope.Family
import DataBinding.Proofs.Scope.Reactive
import DataBinding.Proofs.Scope.Ended
import DataBinding.Proofs.Scope.Lockstep
import DataBinding.Proofs.Scope.Thinned
import DataBinding.Proofs.Scope.Undisturbed
import DataBinding.Proofs.Scope.Session
import DataBinding.Proofs.Expr.WellFormed
import DataBinding.Proofs.Expr.Forms
import DataBinding.Proofs.Expr.Image
import DataBinding.Proofs.Decimal.Nearest
import DataBinding.Proofs.Decimal.Plain
import DataBinding.Proofs.Expr.Literals
import DataBinding.Proofs.Expr.RoundTrip
import DataBinding.Proofs.Expr.Cursor
import DataBinding.Proofs.Expr.NumberArguments
import DataBinding.Proofs.Expr.Concat
import DataBinding.Proofs.Operation.Exact
import DataBinding.Proofs.Value.Frame
import DataBinding.Proofs.Value.Equality
import DataBinding.Proofs.Scope.Seen
import DataBinding.Proofs.Scope.Whole
import DataBinding.Proofs.Scope.Residue
import DataBinding.Proofs.Decimal.Order
import DataBinding.Proofs.Operation.Ordered
import DataBinding.Proofs.Expr.Trace
import DataBinding.Proofs.Operation.Respelled
import DataBinding.Proofs.Decimal.Quick
import DataBinding.Proofs.Json.Library
import DataBinding.Proofs.Operation.Ends
import DataBinding.Proofs.Operation.Elements
import DataBinding.Proofs.Scope.Loops
