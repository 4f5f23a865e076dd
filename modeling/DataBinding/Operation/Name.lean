import DataBinding.Text.NameChar

/-!
# Operation names

* `isOperationName`: name characters only, at least one of them a letter a to z or A to Z or an
  underscore.
-/

namespace DataBinding

/-- Whether a text can name an operation. -/
def isOperationName (name : String) : Bool :=
  name.toList.all Text.isNameChar && name.toList.any Text.isWordStart

end DataBinding
