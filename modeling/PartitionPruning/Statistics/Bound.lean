import PartitionPruning.Expr.Build

/-! Bounds: comparisons of a column with a constant, and the predicates on the least and greatest
value of the column in a file that follow from them. -/

namespace PartitionPruning

/-- The side from which a comparison bounds a column. -/
inductive Bound where
  | upper
  | lower
  | both
  | neither
  deriving DecidableEq, Repr

namespace Bound

/-- The bound of a comparison that has the column on its left. -/
def ofOp : CompareOp → Bound
  | .lessThan | .lessOrEqual => upper
  | .greaterThan | .greaterOrEqual => lower
  | .equal => both
  | .notEqual => neither

def ofComparison (n : Node) : Bound :=
  match n.kind, n.field? "left", n.field? "right" with
  | .comparison op, some left, some right =>
    if left.isReference && right.isConstant then ofOp op
    else if left.isConstant && right.isReference then ofOp op.swap
    else neither
  | _, _, _ => neither

/-- From above; an equality is so too. -/
def isUpper (b : Bound) : Bool := b = upper || b = both

def isLower (b : Bound) : Bool := b = lower || b = both

/-- True unless the column `extreme` holds a value for which the comparison with the constant, both
as values of a type, is not true. -/
def guarded (op : CompareOp) (extreme : String) (literal : Node) (type : DataType) :
    Except Fault Node := do
  let column := Build.reference [extreme]
  let left ← Build.castAs column type
  let right ← Build.castAs literal type
  pure (Build.ifThenElse (Build.isNull column) Build.trueLiteral (Build.comparison op left right))

/-- A file can hold a value at or below the constant only if its least value is. -/
def upperPredicate (min : String) (literal : Node) (type : DataType) : Except Fault Node :=
  guarded .lessOrEqual min literal type

/-- A file can hold a value at or above the constant only if its greatest value is. -/
def lowerPredicate (max : String) (literal : Node) (type : DataType) : Except Fault Node :=
  guarded .greaterOrEqual max literal type

end Bound

end PartitionPruning
