import PartitionPruning.DataType.Serialized
import PartitionPruning.Expr.Column

/-! Expressions as evaluation sees them: the parts of a node that bear on its value, and `unknown`
for everything else. -/

namespace PartitionPruning

inductive UnaryOp where
  | isNull
  | isNotNull
  | not
  deriving DecidableEq, Repr

def UnaryOp.ofTypeName? (type : String) : Option UnaryOp :=
  if type = "OPERATOR_IS_NULL" then some isNull
  else if type = "OPERATOR_IS_NOT_NULL" then some isNotNull
  else if type = "OPERATOR_NOT" then some not
  else none

inductive Expr where
  | constant (node : Node)
  | column (name : String)
  /-- A cast, whose type is missing if it cannot be read. -/
  | cast (operand : Expr) (type : Option DataType)
  | comparison (op : CompareOp) (left right : Expr)
  | conjunction (op : ConjunctionOp) (children : List Expr)
  /-- Arms of a condition and a result each, and the result if no arm applies. -/
  | case (arms : List (Expr × Expr)) (otherwise : Option Expr)
  /-- An operator on one operand, missing if it has no meaning here. -/
  | unary (op : Option UnaryOp) (operand : Expr)
  | unknown
  deriving Inhabited

namespace Expr

def castTarget (n : Node) : Option DataType :=
  (n.field? "cast_type").bind fun type => (DataType.ofTypeNode type).toOption

mutual

/-- The expression that a node stands for. -/
def ofNode (n : Node) : Expr :=
  match n.kind with
  | .constant => constant n
  | .columnRef =>
    match n.columnNames with
    | .ok [name] => column name
    | _ => unknown
  | .cast => cast (ofField n "child") (castTarget n)
  | .comparison op => comparison op (ofField n "left") (ofField n "right")
  | .conjunction op => conjunction op ((n.itemsOf "children").attach.map fun c => ofNode c.val)
  | .case =>
    match _h : n.itemsOf? "case_checks" with
    | none => unknown
    | some checks =>
      case (checks.attach.map fun c => (ofField c.val "when_expr", ofField c.val "then_expr"))
        (match _hp : n.present? "else_expr" with
          | none => none
          | some otherwise => some (ofNode otherwise))
  | _ =>
    if n.hasClass "OPERATOR" then
      match _h : n.itemsOf "children" with
      | [operand] => unary (n.type?.bind UnaryOp.ofTypeName?) (ofNode operand)
      | _ => unknown
    else unknown
termination_by (sizeOf n, 1)
decreasing_by
  · exact Prod.Lex.right _ (by decide)
  · exact Prod.Lex.right _ (by decide)
  · exact Prod.Lex.right _ (by decide)
  · exact Prod.Lex.left _ _ (Node.sizeOf_lt_of_mem_itemsOf c.property)
  · exact Prod.Lex.left _ _ (Node.sizeOf_lt_of_mem_itemsOf? _h c.property)
  · exact Prod.Lex.left _ _ (Node.sizeOf_lt_of_mem_itemsOf? _h c.property)
  · exact Prod.Lex.left _ _ (Node.sizeOf_lt_of_present? _hp)
  · have ho : operand ∈ n.itemsOf "children" := by simp [_h]
    exact Prod.Lex.left _ _ (Node.sizeOf_lt_of_mem_itemsOf ho)

def ofField (n : Node) (key : String) : Expr :=
  match _h : n.field? key with
  | none => unknown
  | some v => ofNode v
termination_by (sizeOf n, 0)
decreasing_by exact Prod.Lex.left _ _ (Node.sizeOf_lt_of_field? _h)

end

end Expr

end PartitionPruning
