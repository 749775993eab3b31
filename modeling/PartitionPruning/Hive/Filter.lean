import PartitionPruning.Expr.Build
import PartitionPruning.Statement
import PartitionPruning.Tree.Replace

/-! The part of a WHERE clause that is on partition columns alone. Every other predicate gives way
to one that is always true. -/

namespace PartitionPruning

/-- The reference is to one of the columns, by its name alone. -/
def isColumnAmong (partitions : List String) (reference : Node) : Bool :=
  match reference.columnNames with
  | .ok [name] => partitions.contains name
  | _ => false

/-- The predicate has column references and all of them are to partition columns; nothing is known
about the columns of a subquery. -/
def onlyPartitions (partitions : List String) (predicate : Node) : Bool :=
  predicate.subqueries.isEmpty && !predicate.references.isEmpty &&
    predicate.references.all (isColumnAmong partitions)

/-- A comparison on partition columns as it is. -/
def keepOrDrop (partitions : List String) (predicate : Node) : Node :=
  if predicate.isComparison && onlyPartitions partitions predicate then predicate
  else Build.trueLiteral

/-- The partition part of a WHERE clause. The operands of an `AND` are taken one by one, and no
other shape is looked into. -/
def partitionPart (partitions : List String) (filter : Node) : Node :=
  if filter.isAnd then
    Build.conjunction .and ((filter.itemsOf "children").map (keepOrDrop partitions))
  else if filter.isComparison then keepOrDrop partitions filter
  else Build.trueLiteral

def dropOtherPredicates (partitions : List String) (select : Node) : Except Fault Node :=
  match select.whereClause? with
  | some filter => select.withWhereClause (partitionPart partitions filter)
  | none => .ok select

/-- Every outermost select of a tree with the partition part of its WHERE clause. -/
def dropOtherPredicatesInTree (partitions : List String) (tree : Node) : Except Fault Node :=
  tree.replaceM Node.isSelect (dropOtherPredicates partitions)

end PartitionPruning
