import PartitionPruning.Tree.Node

/-! What a node of an expression is, read off its class and type: the operators of comparisons and
conjunctions, and the kinds of nodes that pruning and evaluation know. -/

namespace PartitionPruning

inductive CompareOp where
  | equal
  | notEqual
  | lessThan
  | greaterThan
  | lessOrEqual
  | greaterOrEqual
  deriving DecidableEq, Repr

namespace CompareOp

def typeName : CompareOp → String
  | equal => "COMPARE_EQUAL"
  | notEqual => "COMPARE_NOTEQUAL"
  | lessThan => "COMPARE_LESSTHAN"
  | greaterThan => "COMPARE_GREATERTHAN"
  | lessOrEqual => "COMPARE_LESSTHANOREQUALTO"
  | greaterOrEqual => "COMPARE_GREATERTHANOREQUALTO"

def all : List CompareOp :=
  [equal, notEqual, lessThan, greaterThan, lessOrEqual, greaterOrEqual]

def ofTypeName? (type : String) : Option CompareOp := all.find? fun op => op.typeName == type

/-- The operator with the same result on swapped operands. -/
def swap : CompareOp → CompareOp
  | lessThan => greaterThan
  | greaterThan => lessThan
  | lessOrEqual => greaterOrEqual
  | greaterOrEqual => lessOrEqual
  | op => op

def symbol : CompareOp → String
  | equal => "="
  | notEqual => "<>"
  | lessThan => "<"
  | greaterThan => ">"
  | lessOrEqual => "<="
  | greaterOrEqual => ">="

/-- Whether a comparison is true of operands in this order. -/
def holds : CompareOp → Ordering → Bool
  | equal, o => o.isEq
  | notEqual, o => o.isNe
  | lessThan, o => o.isLT
  | greaterThan, o => o.isGT
  | lessOrEqual, o => o.isLE
  | greaterOrEqual, o => o.isGE

end CompareOp

inductive ConjunctionOp where
  | and
  | or
  deriving DecidableEq, Repr

namespace ConjunctionOp

def typeName : ConjunctionOp → String
  | and => "CONJUNCTION_AND"
  | or => "CONJUNCTION_OR"

def ofTypeName? (type : String) : Option ConjunctionOp :=
  if type = and.typeName then some and else if type = or.typeName then some or else none

/-- The operand that decides a conjunction on its own. -/
def dominant : ConjunctionOp → Bool
  | and => false
  | or => true

end ConjunctionOp

/-- The kinds of nodes with a meaning here; all others are opaque. -/
inductive Kind where
  | constant
  | columnRef
  | comparison (op : CompareOp)
  | conjunction (op : ConjunctionOp)
  | cast
  | case
  | function
  | subquery
  | select
  | other
  deriving DecidableEq, Repr

namespace Node

def hasClass (n : Node) (c : String) : Bool := n.class? == some c

def hasType (n : Node) (t : String) : Bool := n.type? == some t

def hasClassAndType (n : Node) (c t : String) : Bool := n.hasClass c && n.hasType t

/-- The kind of a node. Only a select has a type without a class. -/
def kind (n : Node) : Kind :=
  match n.type? with
  | none => .other
  | some type =>
    match n.class? with
    | none => if type = "SELECT_NODE" then .select else .other
    | some c =>
      if c = "COMPARISON" then ((CompareOp.ofTypeName? type).map .comparison).getD .other
      else if c = "CONJUNCTION" then
        ((ConjunctionOp.ofTypeName? type).map .conjunction).getD .other
      else if c = "CONSTANT" ∧ type = "VALUE_CONSTANT" then .constant
      else if c = "COLUMN_REF" ∧ type = "COLUMN_REF" then .columnRef
      else if c = "CAST" ∧ type = "OPERATOR_CAST" then .cast
      else if c = "CASE" ∧ type = "CASE_EXPR" then .case
      else if c = "FUNCTION" ∧ type = "FUNCTION" then .function
      else if c = "SUBQUERY" ∧ type = "SUBQUERY" then .subquery
      else .other

def isConstant (n : Node) : Bool := n.kind = .constant

def isReference (n : Node) : Bool := n.kind = .columnRef

def isComparison (n : Node) : Bool := n.hasClass "COMPARISON"

def isAnd (n : Node) : Bool := n.kind = .conjunction .and

def isOr (n : Node) : Bool := n.kind = .conjunction .or

/-- An `AND` without children, which is always true. -/
def isEmptyAnd (n : Node) : Bool := n.isAnd && (n.itemsOf "children").isEmpty

def isCast (n : Node) : Bool := n.kind = .cast

def isReferenceCast (n : Node) : Bool := n.isCast && (n.field? "child").any isReference

def isSelect (n : Node) : Bool := n.kind = .select

def isSubquery (n : Node) : Bool := n.kind = .subquery

def isCase (n : Node) : Bool := n.kind = .case

def isFunction (n : Node) : Bool := n.kind = .function

end Node

end PartitionPruning
