import PartitionPruning.Tree.Node

/-! Searching a tree for nodes. -/

namespace PartitionPruning

namespace Node

/-- The nodes that satisfy `p`, in traversal order. The search does not go on below a node that it
has found. -/
def find (p : Node → Bool) (n : Node) : List Node :=
  if p n then [n]
  else n.searchChildren.attach.flatMap fun child => find p child.val
termination_by sizeOf n
decreasing_by exact sizeOf_lt_of_mem_searchChildren child.property

theorem find_of_true {p : Node → Bool} {n : Node} (h : p n = true) : find p n = [n] := by
  rw [find, if_pos h]

theorem find_of_false {p : Node → Bool} {n : Node} (h : p n = false) :
    find p n = n.searchChildren.flatMap (find p) := by
  rw [find, if_neg (by simp [h])]
  conv => rhs; rw [← List.attach_map_subtype_val n.searchChildren, List.flatMap_map]

end Node

end PartitionPruning
