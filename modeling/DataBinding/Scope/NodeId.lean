/-!
# Identities of scope nodes

A node lives in a numbered cell. Cells are used again, and the generation tells apart the nodes that
have lived in one.
-/

namespace DataBinding

/-- The cell of a node, and how often it had been vacated before. -/
structure NodeId where
  index : UInt32
  generation : UInt32
  deriving Repr, DecidableEq

/-- The identity as text, such as `3v0`. -/
def NodeId.text (id : NodeId) : String :=
  s!"{id.index.toNat}v{id.generation.toNat}"

end DataBinding
