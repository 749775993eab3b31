import PartitionPruning.Proofs.Expr.Truth
import PartitionPruning.Proofs.Statistics.Restated

/-! Files without statistics. What a filter becomes is true of nulls alone, for every filter and
every type of a column, and so no such file is pruned. -/

namespace PartitionPruning

open PartitionPruning.Bound

/-- A null is no extreme, so every predicate on the extremes of a column is true of nulls. -/
theorem StatsColumn.Tests.eval_of_null {column : StatsColumn} {literal p : Node} {stats : Row}
    (h : column.Tests literal p) (hmin : Fields.get? stats column.min = some .null)
    (hmax : Fields.get? stats column.max = some .null) : p.eval stats = .known (.bool true) := by
  induction h with
  | extreme hextreme hp =>
    rcases hextreme with rfl | rfl
    · exact eval_guarded_of_null hp hmin
    · exact eval_guarded_of_null hp hmax
  | both _ _ ihp ihq =>
    rw [Build.eval_conjunction]
    apply Node.evalAll_eq_neutral.mpr
    intro n hn
    rcases List.mem_cons.mp hn with rfl | hn
    · exact ihp
    · rw [List.mem_singleton.mp hn]
      exact ihq

namespace StatsMapping

variable {m : StatsMapping} {stats : Row}

/-- Nothing is known about the mapped columns of a file: the statistics hold a null for each of
their extremes. -/
def NoStatistics (m : StatsMapping) (stats : Row) : Prop :=
  ∀ name column, m.get? name = some column →
    Fields.get? stats column.min = some .null ∧ Fields.get? stats column.max = some .null

theorem NoStatistics.eval_restateComparison (h : m.NoStatistics stats) (n : Node) :
    (m.restateComparison n).eval stats = .known (.bool true) := by
  unfold restateComparison
  split
  · rename_i p hp
    obtain ⟨reference, literal, name, column, -, -, -, hcolumn, -, htests⟩ :=
      exists_tests_of_boundPredicate? hp
    obtain ⟨hmin, hmax⟩ := h name column hcolumn
    exact htests.eval_of_null hmin hmax
  · exact Build.eval_trueLiteral
  · exact Build.eval_trueLiteral

/-- Every filter has a form on the statistics, and a file without statistics satisfies it. -/
theorem exists_restateFilter_of_noStatistics (h : m.NoStatistics stats) (filter : Node) :
    ∃ restated, m.restateFilter filter = .ok restated ∧ restated.satisfied stats = .known true := by
  obtain ⟨restated, hok, hform⟩ := m.exists_restateFilter_eq filter
  refine ⟨restated, hok, Node.satisfied_eq_true.mpr ?_⟩
  rcases hform with ⟨-, hkind, hitems⟩ | ⟨-, rfl⟩
  · rw [Node.eval_of_conjunction hkind, Node.itemsOf_of_field? hitems]
    apply Node.evalAll_eq_neutral.mpr
    intro n hn
    obtain ⟨child, -, rfl⟩ := List.mem_map.mp hn
    exact h.eval_restateComparison child
  · exact h.eval_restateComparison filter

/-- A column of lists, to which no value can be cast. -/
def listMapping : StatsMapping :=
  ⟨"t_stats", [("c", ⟨"min_c", "max_c", .list (.scalar .integer)⟩)]⟩

/-- `c = '1'`, which becomes a comparison of lists, next to an operand that is no expression. -/
def listFilter : Node :=
  Build.conjunction .and
    [Build.comparison .equal (Build.reference ["c"]) (Build.varchar "1"), .array []]

/-- Nulls satisfy the form of the filter, although neither an extreme nor the constant is a list. -/
theorem exists_restateFilter_of_noStatistics_lists :
    listMapping.NoStatistics [("min_c", .null), ("max_c", .null)] ∧
      ∃ restated, listMapping.restateFilter listFilter = .ok restated ∧
        restated.satisfied [("min_c", .null), ("max_c", .null)] = .known true := by
  have hstats : listMapping.NoStatistics [("min_c", .null), ("max_c", .null)] := by
    intro name column hcolumn
    simp only [get?, listMapping, Fields.get?] at hcolumn
    split at hcolumn
    · obtain rfl := Option.some.inj hcolumn
      exact ⟨rfl, rfl⟩
    · contradiction
  exact ⟨hstats, exists_restateFilter_of_noStatistics hstats listFilter⟩

end StatsMapping

end PartitionPruning
