import PartitionPruning.Proofs.Expr.Layout
import PartitionPruning.Proofs.Expr.Leaves
import PartitionPruning.Proofs.Statistics.Restated
import PartitionPruning.Proofs.Tree.Parts

/-! What a filter becomes on the statistics mentions no column of the data. Its references are to the
extremes of mapped columns, and only of columns that the filter itself mentions. -/

namespace PartitionPruning

open PartitionPruning.Bound

/-- The constant goes into the predicates with everything below it, so it must hold no reference. -/
theorem StatsColumn.Tests.references {column : StatsColumn} {literal p : Node}
    (h : column.Tests literal p) (hliteral : literal.references = []) :
    ∀ r ∈ p.references,
      r = Build.reference [column.min] ∨ r = Build.reference [column.max] := by
  have hleaf := Node.isLeafTest_isReference
  induction h with
  | @extreme op extreme p hextreme hp =>
    intro r hr
    have hall : p.references = [Build.reference [extreme], Build.reference [extreme]] := by
      rw [guarded_eq_ok hp, Node.references, Build.find_ifThenElse hleaf,
        Build.find_isNull hleaf, Build.find_comparison hleaf, Build.find_castNode hleaf,
        Build.find_castNode hleaf, ← Node.references, ← Node.references, ← Node.references,
        Build.references_reference, hliteral, Build.references_trueLiteral]
      rfl
    have hr : r = Build.reference [extreme] := by simpa [hall] using hr
    rcases hextreme with rfl | rfl
    · exact Or.inl hr
    · exact Or.inr hr
  | @both p q _ _ ihp ihq =>
    intro r hr
    have hall : (Build.conjunction .and [p, q]).references = p.references ++ q.references := by
      rw [Node.references, Build.find_conjunction hleaf]
      simp [Node.references]
    rw [hall] at hr
    rcases List.mem_append.mp hr with hr | hr
    · exact ihp r hr
    · exact ihq r hr

namespace StatsMapping

variable {m : StatsMapping} {n : Node}

/-- The node is a reference to the least or the greatest values of a mapped column, to which there
is a reference in `n`. -/
def IsExtremeFor (m : StatsMapping) (n r : Node) : Prop :=
  ∃ reference ∈ n.references, ∃ name column, reference.columnNames = .ok [name] ∧
    m.get? name = some column ∧
    (r = Build.reference [column.min] ∨ r = Build.reference [column.max])

theorem isExtremeFor_of_mem_references (hchildren : n.field? "children" = none)
    (hchild : n.field? "child" = none) {r : Node} (hr : r ∈ (m.restateComparison n).references) :
    m.IsExtremeFor n r := by
  unfold restateComparison at hr
  split at hr
  · rename_i p hp
    obtain ⟨reference, literal, name, column, href, hlit, hnames, hcolumn, hbound, htests⟩ :=
      exists_tests_of_boundPredicate? hp
    have hliteral := references_literal_of_bound hbound hchildren hchild href hlit
    have hmem : reference ∈ n.references := by
      rw [href]
      exact List.mem_cons_self
    exact ⟨reference, hmem, name, column, hnames, hcolumn, htests.references hliteral r hr⟩
  · simp [Build.references_trueLiteral] at hr
  · simp [Build.references_trueLiteral] at hr

/-- A reference in what a node becomes stands for one in the node. -/
theorem isExtremeFor_of_restateComparison
    (hplain : n.isComparison = true → n.field? "children" = none ∧ n.field? "child" = none)
    {r : Node} (hr : r ∈ (m.restateComparison n).references) : m.IsExtremeFor n r := by
  cases hcomparison : n.isComparison with
  | true =>
    obtain ⟨hchildren, hchild⟩ := hplain hcomparison
    exact isExtremeFor_of_mem_references hchildren hchild hr
  | false =>
    rw [restateComparison_of_other hcomparison, Build.references_trueLiteral] at hr
    contradiction

theorem references_of_children {ns : List Node} (hkind : n.kind = .conjunction .and)
    (hchildren : n.field? "children" = some (.array ns)) :
    n.references = ns.flatMap Node.references := by
  rw [Node.references, Node.isLeafTest_isReference.find_of_kind hkind rfl,
    Node.searchChildren_of_children hchildren]
  rfl

/-- Every reference in what a filter becomes is to an extreme of a mapped column, and there is a
reference to the column in the filter. -/
theorem exists_references_restateFilter (m : StatsMapping) {filter : Node}
    (hplain : ∀ t ∈ filter.parts, t.isComparison = true →
      t.field? "children" = none ∧ t.field? "child" = none) :
    ∃ restated, m.restateFilter filter = .ok restated ∧
      ∀ r ∈ restated.references, m.IsExtremeFor filter r := by
  obtain ⟨restated, hok, hform⟩ := m.exists_restateFilter_eq filter
  refine ⟨restated, hok, ?_⟩
  intro r hr
  rcases hform with ⟨hand, hkind, hchildren⟩ | ⟨-, rfl⟩
  · rw [references_of_children hkind hchildren] at hr
    obtain ⟨restatedChild, hmem, hr⟩ := List.mem_flatMap.mp hr
    obtain ⟨child, hchild, rfl⟩ := List.mem_map.mp hmem
    have hplainChild := hplain child (Node.mem_parts_of_mem_itemsOf hchild child.self_mem_parts)
    obtain ⟨reference, href, hextreme⟩ := isExtremeFor_of_restateComparison hplainChild hr
    have hnot : filter.isReference = false := by
      have hfilter : filter.kind = .conjunction .and := by simpa [Node.isAnd] using hand
      simp [Node.isReference, hfilter]
    exact ⟨reference, Node.mem_references_of_searchChildren hnot
      (Node.mem_searchChildren_of_itemsOf hchild) href, hextreme⟩
  · exact isExtremeFor_of_restateComparison (hplain filter filter.self_mem_parts) hr

/-- The column `c`, with its extremes under other names. -/
def lowHighMapping : StatsMapping := ⟨"t_stats", [("c", ⟨"low", "high", .scalar .integer⟩)]⟩

/-- `c = '1'` -/
def isOneText : Node := Build.comparison .equal (Build.reference ["c"]) (Build.varchar "1")

/-- `c = '1' AND d < c` -/
def isOneAndLess : Node :=
  Build.conjunction .and
    [isOneText, Build.comparison .lessThan (Build.reference ["d"]) (Build.reference ["c"])]

/-- Only the first operand has references on the statistics, four of them, and none is to `d`. -/
theorem exists_references_restateFilter_lowHigh :
    (∀ t ∈ isOneAndLess.parts, t.isComparison = true →
      t.field? "children" = none ∧ t.field? "child" = none) ∧
    (lowHighMapping.restateComparison isOneText).references.length = 4 ∧
    ∃ restated, lowHighMapping.restateFilter isOneAndLess = .ok restated ∧
      ∀ r ∈ restated.references, lowHighMapping.IsExtremeFor isOneAndLess r := by
  have hplain : ∀ t ∈ isOneAndLess.parts, t.isComparison = true →
      t.field? "children" = none ∧ t.field? "child" = none := by decide +kernel
  exact ⟨hplain, by decide +kernel, exists_references_restateFilter lowHighMapping hplain⟩

end StatsMapping

end PartitionPruning
