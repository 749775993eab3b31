import PartitionPruning.Proofs.Expr.Tag
import PartitionPruning.Proofs.Hive.Prune

/-! The partition part of a WHERE clause is its own partition part, and putting it in the place of
the clause changes nothing else about a select. -/

namespace PartitionPruning

variable {partitions : List String}

theorem keepOrDrop_trueLiteral : keepOrDrop partitions Build.trueLiteral = Build.trueLiteral := rfl

theorem keepOrDrop_idem (predicate : Node) :
    keepOrDrop partitions (keepOrDrop partitions predicate) = keepOrDrop partitions predicate := by
  rcases keepOrDrop_cases partitions predicate with h | h
  · rw [h, h]
  · rw [h, keepOrDrop_trueLiteral]

theorem partitionPart_trueLiteral :
    partitionPart partitions Build.trueLiteral = Build.trueLiteral := rfl

theorem partitionPart_idem (filter : Node) :
    partitionPart partitions (partitionPart partitions filter) =
      partitionPart partitions filter := by
  by_cases hand : filter.isAnd = true
  · have hpart : partitionPart partitions filter =
        Build.conjunction .and ((filter.itemsOf "children").map (keepOrDrop partitions)) := by
      rw [partitionPart, if_pos hand]
    have hagain : (Build.conjunction .and ((filter.itemsOf "children").map
        (keepOrDrop partitions))).isAnd = true := by
      simp [Node.isAnd, Build.kind_conjunction]
    rw [hpart, partitionPart, if_pos hagain]
    show Build.conjunction .and
      (((filter.itemsOf "children").map (keepOrDrop partitions)).map (keepOrDrop partitions)) = _
    rw [List.map_map]
    exact congrArg _ (List.map_congr_left fun child _ => keepOrDrop_idem child)
  · have hpart : partitionPart partitions filter = filter ∨
        partitionPart partitions filter = Build.trueLiteral := by
      rw [partitionPart, if_neg hand]
      split
      · exact keepOrDrop_cases partitions filter
      · exact Or.inr rfl
    rcases hpart with h | h
    · rw [h, h]
    · rw [h, partitionPart_trueLiteral]

/-- No predicate of the select's WHERE clause has to be dropped. -/
def IsOnPartitions (partitions : List String) (select : Node) : Prop :=
  ∀ clause, select.whereClause? = some clause → partitionPart partitions clause = clause

theorem isOnPartitions_of_dropOtherPredicates {select r : Node}
    (h : dropOtherPredicates partitions select = .ok r) : IsOnPartitions partitions r := by
  intro clause hclause
  unfold dropOtherPredicates at h
  split at h
  · rw [Node.whereClause?] at hclause
    have hfield := Node.field?_of_present? hclause
    rw [Node.field?_withField_self h, Option.some.injEq] at hfield
    rw [← hfield, partitionPart_idem]
  · rename_i hnone
    rw [← Except.ok.inj h, hnone] at hclause
    contradiction

theorem sameTag_of_dropOtherPredicates {select r : Node}
    (h : dropOtherPredicates partitions select = .ok r) : r.SameTag select := by
  unfold dropOtherPredicates at h
  split at h
  · exact Node.sameTag_withField h (by decide) (by decide)
  · rw [← Except.ok.inj h]
    exact .refl _

theorem exists_dropOtherPredicates {select : Node} (h : select.isSelect = true) :
    ∃ r, dropOtherPredicates partitions select = .ok r := by
  unfold dropOtherPredicates
  split
  · have hkind : select.kind = .select := by simpa [Node.isSelect] using h
    obtain ⟨type, htype⟩ := Node.exists_type?_of_kind (n := select) (by simp [hkind])
    exact Node.exists_withField htype _ _
  · exact ⟨_, rfl⟩

end PartitionPruning
