import PartitionPruning.Proofs.Expr.Layout
import PartitionPruning.Proofs.Hive.Prune

/-! The partition part of a filter looks at partition columns and at no others: what a row holds in
the columns of the data does not bear on its answer. -/

namespace PartitionPruning

variable {partitions : List String} {predicate filter : Node} {a b : Row}

/-- A predicate that is kept refers to partition columns alone. -/
theorem agreeOn_of_onlyPartitions (h : onlyPartitions partitions predicate = true)
    (hagree : ∀ name ∈ partitions, Fields.get? a name = Fields.get? b name) :
    predicate.AgreeOn a b := by
  intro r hr name hname
  obtain ⟨-, -, hreferences⟩ := onlyPartitions_iff.mp h
  obtain ⟨column, hcolumn, hr⟩ := hreferences r hr
  rw [hname, Except.ok.injEq, List.cons.injEq] at hr
  exact hagree name (hr.1 ▸ hcolumn)

theorem eval_keepOrDrop_congr (hlayout : ∀ t ∈ predicate.parts, t.IsLaidOut)
    (hagree : ∀ name ∈ partitions, Fields.get? a name = Fields.get? b name) :
    (keepOrDrop partitions predicate).eval a = (keepOrDrop partitions predicate).eval b := by
  unfold keepOrDrop
  split
  · rename_i hkept
    rw [Bool.and_eq_true] at hkept
    exact Node.eval_congr hlayout (agreeOn_of_onlyPartitions hkept.2 hagree)
  · rw [Build.eval_trueLiteral, Build.eval_trueLiteral]

/-- The partition part of a filter whose nodes are laid out as the front end writes them has the
same answer on rows that agree in all partition columns, whatever their other columns hold. -/
theorem eval_partitionPart_congr (hlayout : ∀ t ∈ filter.parts, t.IsLaidOut)
    (hagree : ∀ name ∈ partitions, Fields.get? a name = Fields.get? b name) :
    (partitionPart partitions filter).eval a = (partitionPart partitions filter).eval b := by
  by_cases hand : filter.isAnd = true
  · rw [eval_partitionPart_of_and hand, eval_partitionPart_of_and hand]
    refine Node.evalAll_congr fun n hn => ?_
    obtain ⟨child, hchild, rfl⟩ := List.mem_map.mp hn
    exact eval_keepOrDrop_congr
      (fun t ht => hlayout t (Node.mem_parts_of_mem_itemsOf hchild ht)) hagree
  · rw [partitionPart, if_neg hand]
    split
    · exact eval_keepOrDrop_congr hlayout hagree
    · rw [Build.eval_trueLiteral, Build.eval_trueLiteral]

/-- `CASE WHEN p IS NULL THEN 'none' ELSE CAST(p AS VARCHAR) END = '7' AND c < '5'` -/
def caseFilter : Node :=
  Build.conjunction .and
    [Build.comparison .equal
      (Build.ifThenElse (Build.isNull (Build.reference ["p"])) (Build.varchar "none")
        (Build.castNode (Build.reference ["p"]) (Build.plainType "VARCHAR")))
      (Build.varchar "7"),
     Build.comparison .lessThan (Build.reference ["c"]) (Build.varchar "5")]

/-- Where `p` is 7, the answer is the same with and without a value for `c`. -/
theorem eval_partitionPart_congr_case :
    (∀ t ∈ caseFilter.parts, t.IsLaidOut) ∧
      (∀ name ∈ ["p"], Fields.get? ([("p", .int 7)] : Row) name =
        Fields.get? ([("c", .int 9), ("p", .int 7)] : Row) name) ∧
      (partitionPart ["p"] caseFilter).eval [("p", .int 7)] =
        (partitionPart ["p"] caseFilter).eval [("c", .int 9), ("p", .int 7)] ∧
      caseFilter.eval [("p", .int 7)] ≠ caseFilter.eval [("c", .int 9), ("p", .int 7)] := by
  have hlayout : ∀ t ∈ caseFilter.parts, t.IsLaidOut := by decide +kernel
  have hagree : ∀ name ∈ ["p"], Fields.get? ([("p", .int 7)] : Row) name =
      Fields.get? ([("c", .int 9), ("p", .int 7)] : Row) name := by decide
  refine ⟨hlayout, hagree, eval_partitionPart_congr hlayout hagree, ?_⟩
  have helse : Build.castNode (Build.reference ["p"]) (Build.plainType "VARCHAR") ≠ .null := by
    simp [Build.castNode, Build.expression]
  have htype : DataType.ofTypeNode (Build.plainType "VARCHAR") = .ok (.scalar .varchar) :=
    DataType.ofTypeNode_typeObject _ rfl
  simp only [caseFilter, Build.eval_conjunction, Node.evalAll, Build.eval_comparison,
    Build.eval_ifThenElse _ _ _ helse, Build.eval_isNull, Build.eval_castNode,
    Build.eval_reference, Build.eval_varchar, htype]
  decide +kernel

end PartitionPruning
