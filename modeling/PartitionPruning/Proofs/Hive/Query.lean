import PartitionPruning.Proofs.Hive.Filter
import PartitionPruning.Proofs.Tree.Frame

/-! Dropping predicates from a whole tree. It always has a result, changes nothing but the WHERE
clauses of the topmost selects, and has nothing left to do on what it has made. -/

namespace PartitionPruning

variable {partitions : List String}

theorem Node.exists_type?_of_isSelect {select : Node} (h : select.isSelect = true) :
    ∃ type, select.type? = some type := by
  have hkind : select.kind = .select := by simpa [Node.isSelect] using h
  exact Node.exists_type?_of_kind (by simp [hkind])

theorem isNull_partitionPart {filter : Node} (h : filter.isNull = false) :
    (partitionPart partitions filter).isNull = false := by
  unfold partitionPart
  split
  · rfl
  · split
    · rcases keepOrDrop_cases partitions filter with hk | hk
      · rw [hk]
        exact h
      · rw [hk]
        rfl
    · rfl

/-- The clause of a select gives way to its partition part, and no other value changes. -/
theorem changesOnly_of_dropOtherPredicates {select r : Node} (hselect : select.isSelect = true)
    (h : dropOtherPredicates partitions select = .ok r) :
    select.ChangesOnly (fun key old _ => key = "where_clause" ∧ old.isNull = false) r ∧
      r.whereClause? = select.whereClause?.map (partitionPart partitions) := by
  unfold dropOtherPredicates at h
  split at h
  · rename_i filter hfilter
    have hfield := Node.field?_of_present? hfilter
    have hnull : filter.isNull = false := Node.isNull_of_present? hfilter
    refine ⟨Node.changesOnly_withField hfield ⟨rfl, hnull⟩ h, ?_⟩
    rw [hfilter, Node.whereClause?, Node.present?, Node.field?_withField_self h]
    simp [isNull_partitionPart hnull]
  · rename_i hnone
    obtain rfl := Except.ok.inj h
    obtain ⟨type, htype⟩ := Node.exists_type?_of_isSelect hselect
    exact ⟨.refl htype, by rw [hnone]; rfl⟩

theorem dropOtherPredicates_of_isOnPartitions {select : Node}
    (h : IsOnPartitions partitions select) : dropOtherPredicates partitions select = .ok select := by
  unfold dropOtherPredicates
  split
  · rename_i filter hfilter
    rw [h filter hfilter]
    exact Node.withField_of_field? (Node.field?_of_present? hfilter)
  · rfl

/-- Dropping predicates always has a result. It differs from the tree in the WHERE clauses of the
topmost selects alone, where each is the partition part of the one before, and dropping predicates
from it changes nothing. -/
theorem exists_dropOtherPredicatesInTree (partitions : List String) (tree : Node) :
    ∃ r, dropOtherPredicatesInTree partitions tree = .ok r ∧
      tree.ChangesTopmost Node.isSelect (fun before after =>
        before.ChangesOnly (fun key old _ => key = "where_clause" ∧ old.isNull = false) after ∧
          after.whereClause? = before.whereClause?.map (partitionPart partitions)) r ∧
      dropOtherPredicatesInTree partitions r = .ok r := by
  obtain ⟨r, hr⟩ := Node.exists_replaceM (fun _ => exists_dropOtherPredicates) tree
  refine ⟨r, hr, ?_, ?_⟩
  · exact Node.changesTopmost_of_replaceM (fun _ _ => changesOnly_of_dropOtherPredicates) hr
  · refine Node.replaceM_replaceM (fun n s hs => ?_) (fun x y _ hy => ?_) hr
    · have htag : s.SameTag n :=
        Node.sameTag_of_replaceM (fun _ _ _ => sameTag_of_dropOtherPredicates) hs
      rw [Node.isSelect, Node.isSelect, htag.kind_eq]
    · exact dropOtherPredicates_of_isOnPartitions (isOnPartitions_of_dropOtherPredicates hy)

end PartitionPruning
