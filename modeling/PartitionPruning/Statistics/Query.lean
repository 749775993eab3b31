import PartitionPruning.Statement
import PartitionPruning.Statistics.Bound
import PartitionPruning.Statistics.Mapping
import PartitionPruning.Tree.Replace

/-! Queries on a data table made into queries on the statistics of its files. The WHERE clause
becomes one that is true for every file that may hold a matching row. -/

namespace PartitionPruning

namespace StatsMapping

/-- The predicate on the statistics that a comparison of exactly one mapped column with exactly one
constant implies; nothing if the comparison is no bound. -/
def boundPredicate? (m : StatsMapping) (comparison : Node) : Except Fault (Option Node) := do
  if !comparison.isComparison then return none
  match comparison.references, comparison.literals with
  | [reference], [literal] =>
    match ← reference.columnNames with
    | [name] =>
      match m.get? name with
      | none => pure none
      | some column =>
        match Bound.ofComparison comparison with
        | .upper => some <$> Bound.upperPredicate column.min literal column.type
        | .lower => some <$> Bound.lowerPredicate column.max literal column.type
        | .both => do
          let lower ← Bound.lowerPredicate column.max literal column.type
          let upper ← Bound.upperPredicate column.min literal column.type
          pure (some (Build.conjunction .and [lower, upper]))
        | .neither => pure none
    | _ => pure none
  | _, _ => pure none

/-- The predicate on the statistics for a comparison; without one every file is kept. -/
def restateComparison (m : StatsMapping) (comparison : Node) : Node :=
  match m.boundPredicate? comparison with
  | .ok (some predicate) => predicate
  | .ok none | .error _ => Build.trueLiteral

def restateConjunction (m : StatsMapping) (conjunction : Node) : Except Fault Node :=
  conjunction.withField "children"
    (.array ((conjunction.itemsOf "children").map m.restateComparison))

/-- The statistics form of a WHERE clause. -/
def restateFilter (m : StatsMapping) (filter : Node) : Except Fault Node :=
  if filter.isAnd then m.restateConjunction filter
  else if filter.isComparison then .ok (m.restateComparison filter)
  else .ok Build.trueLiteral

def retarget (m : StatsMapping) (table : Node) : Except Fault Node :=
  if table.hasType "BASE_TABLE" then table.withField "table_name" (.string m.table)
  else .ok (Build.baseTable m.table)

def restateSelect (m : StatsMapping) (select : Node) : Except Fault Node := do
  match select.fromTable? with
  | none => .error (.malformed (.noFromClause select.describe))
  | some table =>
    let select ← select.withFromTable (← m.retarget table)
    match select.whereClause? with
    | none => pure select
    | some filter => select.withWhereClause (← m.restateFilter filter)

/-- Every outermost select of a tree on the statistics table. -/
def restateTree (m : StatsMapping) (tree : Node) : Except Fault Node :=
  tree.replaceM Node.isSelect m.restateSelect

end StatsMapping

end PartitionPruning
