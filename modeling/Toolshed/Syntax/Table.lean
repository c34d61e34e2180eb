import Toolshed.Diagnostic

namespace Toolshed

/-!
# Tables by node

What is found out about nodes is kept beside the tree, by node number.
-/

/--
What is known about some nodes; a later entry for a node replaces an earlier
one.
-/
structure Table (α : Type) where
  entries : List (NodeId × α)
  deriving Repr, DecidableEq

namespace Table

def empty : Table α :=
  ⟨[]⟩

def insert (table : Table α) (node : NodeId) (value : α) : Table α :=
  ⟨(node, value) :: table.entries⟩

def get? (table : Table α) (node : NodeId) : Option α :=
  table.entries.lookup node

def without (table : Table α) (nodes : List NodeId) : Table α :=
  ⟨table.entries.filter fun entry => !nodes.contains entry.1⟩

end Table

end Toolshed
