import PartitionPruning.Expr.Kind
import PartitionPruning.Text.Split
import PartitionPruning.Tree.Search

/-! Column references and the other leaves that are collected from expressions. -/

namespace PartitionPruning

namespace Node

/-- Every column reference, in traversal order. -/
def references (n : Node) : List Node := n.find isReference

def literals (n : Node) : List Node := n.find isConstant

def referenceCasts (n : Node) : List Node := n.find isReferenceCast

def subqueries (n : Node) : List Node := n.find isSubquery

def nameSegment : Node → Except Fault String
  | string s => .ok s
  | n => .error (.malformed (.columnNameType n.describe))

/-- The segments of a column's name, `c` and `x` for `c.x`. -/
def columnNames (reference : Node) : Except Fault (List String) := do
  match ← reference.require "column_names" with
  | array [] => .error (.malformed .noColumnName)
  | array names => names.mapM nameSegment
  | _ => .error (.malformed .columnNamesType)

def columnName (reference : Node) : Except Fault String :=
  (joinWith ".") <$> reference.columnNames

end Node

end PartitionPruning
