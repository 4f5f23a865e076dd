import DataBinding.Operation.Arithmetic
import DataBinding.Operation.Arrays
import DataBinding.Operation.Comparison
import DataBinding.Operation.Kinds
import DataBinding.Operation.Logic
import DataBinding.Operation.Strings

/-!
# The built-in operations
-/

namespace DataBinding

/-- Every built-in operation. -/
def builtins : List Builtin :=
  Arithmetic.operations ++ Comparison.operations ++ Logic.operations ++ Strings.operations ++
    Arrays.operations ++ Kinds.operations

/-- The operations of a registry that has not been added to. -/
def builtinOperations : List Operation :=
  builtins.map Builtin.operation

end DataBinding
