import PartitionPruning.Expr.Column
import PartitionPruning.Expr.Evaluate

/-! The predicates that the scan of a Delta table takes, made from WHERE clauses. -/

namespace PartitionPruning

inductive DeltaPredicate where
  | column (name : String)
  | literal (value : Value)
  | comparison (op : CompareOp) (left right : DeltaPredicate)
  | not (operand : DeltaPredicate)
  | and (left right : DeltaPredicate)
  | or (left right : DeltaPredicate)
  deriving DecidableEq

namespace DeltaPredicate

/-! ### Evaluation -/

/-- A comparison of two values; it is false with a null, and nothing is known between kinds that
have no order. -/
def compare? (op : CompareOp) (left right : Value) : Option Bool :=
  if left.isNull ∨ right.isNull then some false
  else (left.compare right).map op.holds

/-- True as soon as one side is false gives false, and both must be known otherwise. -/
def both : Option Bool → Option Bool → Option Bool
  | some false, _ | _, some false => some false
  | some true, some true => some true
  | _, _ => none

/-- One true side is enough, and both must be known otherwise. -/
def either : Option Bool → Option Bool → Option Bool
  | some true, _ | _, some true => some true
  | some false, some false => some false
  | _, _ => none

mutual

/-- Whether a predicate is true of a row, if that is known. -/
def holds? (row : Row) : DeltaPredicate → Option Bool
  | literal (.bool b) => some b
  | literal _ => none
  | column name =>
    match Fields.get? row name with
    | some (.bool b) => some b
    | _ => none
  | comparison op left right =>
    (value? row left).bind fun a => (value? row right).bind fun b => compare? op a b
  | not operand => (holds? row operand).map fun b => !b
  | and left right => both (holds? row left) (holds? row right)
  | or left right => either (holds? row left) (holds? row right)

def value? (row : Row) : DeltaPredicate → Option Value
  | column name => Fields.get? row name
  | literal v => some v
  | comparison op left right =>
    ((value? row left).bind fun a => (value? row right).bind fun b => compare? op a b).map .bool
  | not operand => (holds? row operand).map fun b => .bool !b
  | and left right => (both (holds? row left) (holds? row right)).map .bool
  | or left right => (either (holds? row left) (holds? row right)).map .bool

end

/-! ### Text -/

def text : DeltaPredicate → String
  | column name => "column(" ++ name ++ ")"
  | literal (.string s) => "'" ++ s ++ "'"
  | literal v => v.render
  | comparison op left right => "(" ++ left.text ++ " " ++ op.symbol ++ " " ++ right.text ++ ")"
  | not operand => "NOT(" ++ operand.text ++ ")"
  | and left right => "(" ++ left.text ++ " AND " ++ right.text ++ ")"
  | or left right => "(" ++ left.text ++ " OR " ++ right.text ++ ")"

/-! ### From expressions -/

/-- A comparison; an inequality is the negation of an equality. -/
def ofComparison (op : CompareOp) (left right : DeltaPredicate) : DeltaPredicate :=
  match op with
  | .notEqual => not (comparison .equal left right)
  | op => comparison op left right

def ofConjunctionOp : ConjunctionOp → DeltaPredicate → DeltaPredicate → DeltaPredicate
  | .and => and
  | .or => or

/-- The conjunction of predicates, from the left; without any it is a literal. -/
def ofOperands (op : ConjunctionOp) : List DeltaPredicate → DeltaPredicate
  | [] => literal (.bool !op.dominant)
  | p :: ps => ps.foldl (ofConjunctionOp op) p

/-- The value of a cast of a constant, or of such a cast. -/
def castValue (cast : Node) : Except Failure Value := do
  let ⟨child, _⟩ ← cast.requireWithin "child"
  let v ←
    match child.kind with
    | .constant => Value.ofConstant child
    | .cast => castValue child
    | _ => .error (.fault (.unsupported (.deltaCast child.describe)))
  let type ← DataType.ofTypeNode (← cast.require "cast_type")
  v.cast type
termination_by sizeOf cast
decreasing_by assumption

/-- The predicate of an expression: constants and casts of them, columns, comparisons and
conjunctions have one. -/
def ofNode (n : Node) : Except Failure DeltaPredicate := do
  match n.kind with
  | .constant => literal <$> Value.ofConstant n
  | .columnRef => column <$> n.columnName
  | .comparison op =>
    let ⟨left, _⟩ ← n.requireWithin "left"
    let left ← ofNode left
    let ⟨right, _⟩ ← n.requireWithin "right"
    let right ← ofNode right
    pure (ofComparison op left right)
  | .conjunction op =>
    ofOperands op <$> (n.itemsOf "children").attach.mapM fun ⟨child, h⟩ =>
      have := Node.sizeOf_lt_of_mem_itemsOf h
      ofNode child
  | .cast => literal <$> castValue n
  | _ => .error (.fault (.unsupported (.deltaForm n.describe)))
termination_by sizeOf n
decreasing_by all_goals assumption

end DeltaPredicate

end PartitionPruning
