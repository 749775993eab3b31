import PartitionPruning.Expr.Basic
import PartitionPruning.Value.Constant
import PartitionPruning.Value.Order

/-! Evaluating expressions on a row. Values are those of SQL, with null; on top of them an answer is
unknown where the row lacks a column or the expression has a part without meaning here. -/

namespace PartitionPruning

inductive Answer (α : Type) where
  | known (value : α)
  | unknown
  /-- The evaluation has come upon a constant without a value. -/
  | aborted
  deriving DecidableEq

namespace Answer

def bind {α β : Type} : Answer α → (α → Answer β) → Answer β
  | known a, f => f a
  | unknown, _ => unknown
  | aborted, _ => aborted

instance : Monad Answer where
  pure := known
  bind := bind

def ofOption {α : Type} : Option α → Answer α
  | some a => known a
  | none => unknown

/-- The answer of a computation: a fault leaves it unknown. -/
def ofExcept {α : Type} : Except Failure α → Answer α
  | .ok a => known a
  | .error (.fault _) => unknown
  | .error .abort => aborted

end Answer

/-- A comparison of two values: null with a null operand, and without an answer between kinds that
have no order. A text takes the kind of the other operand. -/
def CompareOp.result? (op : CompareOp) (left right : Value) : Option Value :=
  if left.isNull ∨ right.isNull then some .null
  else do
    let a ← left.coerceLike right
    let b ← right.coerceLike left
    let order ← a.compare b
    some (.bool (op.holds order))

namespace ConjunctionOp

/-- What an operand that does not decide a conjunction leaves it at most: null or unknown. -/
def undecided : Answer Value → Answer Value
  | .known .null => .known .null
  | _ => .unknown

/-- The answer of a conjunction, from that of its first operand and that of the conjunction of the
others. The first operand may decide it; otherwise the others still may. -/
def join (op : ConjunctionOp) : Answer Value → Answer Value → Answer Value
  | .aborted, _ => .aborted
  | .known (.bool b), rest => if b = op.dominant then .known (.bool b) else rest
  | _, .aborted => .aborted
  | first, .known (.bool b) => if b = op.dominant then .known (.bool b) else undecided first
  | first, .known .null => undecided first
  | _, _ => .unknown

end ConjunctionOp

def UnaryOp.result? : UnaryOp → Value → Option Value
  | isNull, v => some (.bool v.isNull)
  | isNotNull, v => some (.bool !v.isNull)
  | not, .bool b => some (.bool !b)
  | not, .null => some .null
  | not, _ => none

namespace Expr

mutual

def eval (row : Row) : Expr → Answer Value
  | constant n => .ofExcept (Value.ofConstant n)
  | column name => .ofOption (Fields.get? row name)
  | cast operand type =>
    (eval row operand).bind fun v => .ofOption (type.bind fun t => (v.cast t).toOption)
  | comparison op left right =>
    (eval row left).bind fun a => (eval row right).bind fun b => .ofOption (op.result? a b)
  | conjunction op children => evalAll row op children
  | case arms otherwise => evalArms row (evalOtherwise row otherwise) arms
  | unary op operand =>
    (eval row operand).bind fun v => .ofOption (op.bind fun op => op.result? v)
  | unknown => .unknown

def evalAll (row : Row) (op : ConjunctionOp) : List Expr → Answer Value
  | [] => .known (.bool !op.dominant)
  | e :: es => op.join (eval row e) (evalAll row op es)

/-- The result of the first arm with a true condition. -/
def evalArms (row : Row) (otherwise : Answer Value) : List (Expr × Expr) → Answer Value
  | [] => otherwise
  | (condition, result) :: arms =>
    (eval row condition).bind fun v =>
      match v with
      | .bool true => eval row result
      | .bool false | .null => evalArms row otherwise arms
      | _ => .unknown

def evalOtherwise (row : Row) : Option Expr → Answer Value
  | none => .known .null
  | some e => eval row e

end

end Expr

namespace Node

def eval (row : Row) (n : Node) : Answer Value := (Expr.ofNode n).eval row

/-- Whether a row satisfies a predicate. Null counts as false, and the answer is unknown for a value
that is no truth value. -/
def satisfied (row : Row) (n : Node) : Answer Bool :=
  (n.eval row).bind fun v =>
    match v with
    | .bool b => .known b
    | .null => .known false
    | _ => .unknown

end Node

end PartitionPruning
