import PartitionPruning.Expr.Evaluate
import PartitionPruning.Proofs.Tree.Parts

/-! The value of a node by its kind: one equation for each kind, in terms of the values of the nodes
below it. With the equations goes what has to hold of the constants of a node for its evaluation
to come to an end. -/

namespace PartitionPruning

namespace Node

/-- The value of the expression in a field, unknown without the field. -/
def evalField (row : Row) (n : Node) (key : String) : Answer Value :=
  match n.field? key with
  | none => .unknown
  | some v => v.eval row

theorem eval_ofField (row : Row) (n : Node) (key : String) :
    (Expr.ofField n key).eval row = evalField row n key := by
  rw [Expr.ofField, evalField]
  split <;> rename_i h <;> simp [h, Expr.eval, eval]

theorem eval_of_constant {row : Row} {n : Node} (h : n.kind = .constant) :
    n.eval row = .ofExcept (Value.ofConstant n) := by
  rw [eval, Expr.ofNode]
  simp only [h, Expr.eval]

theorem eval_of_isConstant {row : Row} {n : Node} {v : Value} (h : n.isConstant = true)
    (hv : Value.ofConstant n = .ok v) : n.eval row = .known v := by
  rw [eval_of_constant (by simpa [isConstant] using h), hv]
  rfl

theorem eval_of_columnRef {row : Row} {n : Node} (h : n.kind = .columnRef) :
    n.eval row = match n.columnNames with
      | .ok [name] => .ofOption (Fields.get? row name)
      | _ => .unknown := by
  rw [eval, Expr.ofNode]
  simp only [h]
  split <;> simp_all [Expr.eval]

theorem eval_of_isReference {row : Row} {n : Node} {name : String} (h : n.isReference = true)
    (hname : n.columnNames = .ok [name]) : n.eval row = .ofOption (Fields.get? row name) := by
  rw [eval_of_columnRef (by simpa [isReference] using h), hname]

theorem eval_of_cast {row : Row} {n : Node} (h : n.kind = .cast) :
    n.eval row = (evalField row n "child").bind fun v =>
      .ofOption ((Expr.castTarget n).bind fun t => (v.cast t).toOption) := by
  rw [eval, Expr.ofNode]
  simp only [h, Expr.eval, eval_ofField]

theorem eval_of_comparison {row : Row} {n : Node} {op : CompareOp} (h : n.kind = .comparison op) :
    n.eval row = (evalField row n "left").bind fun a => (evalField row n "right").bind fun b =>
      .ofOption (op.result? a b) := by
  rw [eval, Expr.ofNode]
  simp only [h, Expr.eval, eval_ofField]

/-- The answer of a conjunction from those of its operands. -/
def evalAll (row : Row) (op : ConjunctionOp) : List Node → Answer Value
  | [] => .known (.bool !op.dominant)
  | n :: ns => op.join (n.eval row) (evalAll row op ns)

theorem evalAll_ofNode (row : Row) (op : ConjunctionOp) (ns : List Node) :
    Expr.evalAll row op (ns.map Expr.ofNode) = evalAll row op ns := by
  induction ns with
  | nil => simp [Expr.evalAll, evalAll]
  | cons n ns ih => simp only [List.map_cons, Expr.evalAll, evalAll, ih, eval]

theorem eval_of_conjunction {row : Row} {n : Node} {op : ConjunctionOp}
    (h : n.kind = .conjunction op) :
    n.eval row = evalAll row op (n.itemsOf "children") := by
  rw [eval, Expr.ofNode]
  simp only [h, Expr.eval, List.attach_map_val, evalAll_ofNode]

/-- The answer of a case from its arms on, with the answer if no arm applies. -/
def evalChecks (row : Row) (otherwise : Answer Value) : List Node → Answer Value
  | [] => otherwise
  | check :: checks =>
    (evalField row check "when_expr").bind fun v =>
      match v with
      | .bool true => evalField row check "then_expr"
      | .bool false | .null => evalChecks row otherwise checks
      | _ => .unknown

def evalElse (row : Row) (n : Node) : Answer Value :=
  match n.present? "else_expr" with
  | none => .known .null
  | some otherwise => otherwise.eval row

theorem evalArms_ofNode (row : Row) (otherwise : Answer Value) (checks : List Node) :
    Expr.evalArms row otherwise
      (checks.map fun c => (Expr.ofField c "when_expr", Expr.ofField c "then_expr")) =
        evalChecks row otherwise checks := by
  induction checks with
  | nil => simp [Expr.evalArms, evalChecks]
  | cons check checks ih =>
    rw [List.map_cons, Expr.evalArms, ih, eval_ofField, eval_ofField]
    rfl

theorem eval_of_case {row : Row} {n : Node} (h : n.kind = .case) :
    n.eval row = match n.itemsOf? "case_checks" with
      | none => .unknown
      | some checks => evalChecks row (evalElse row n) checks := by
  rw [eval, Expr.ofNode]
  simp only [h]
  split
  · rename_i hc; simp [hc, Expr.eval]
  · rename_i checks hc
    simp only [hc, Expr.eval]
    rw [List.attach_map_val
      (f := fun c => (Expr.ofField c "when_expr", Expr.ofField c "then_expr")),
      evalArms_ofNode, evalElse]
    congr 1
    split <;> rename_i hp <;> simp [hp, Expr.evalOtherwise, eval]

theorem kind_of_operator {n : Node} (h : n.hasClass "OPERATOR" = true) : n.kind = .other := by
  have hclass : n.class? = some "OPERATOR" := by simpa [hasClass] using h
  unfold kind
  split
  · rfl
  · simp [hclass]

theorem eval_of_operator {row : Row} {n : Node} (h : n.hasClass "OPERATOR" = true) :
    n.eval row = match n.itemsOf "children" with
      | [operand] => (operand.eval row).bind fun v =>
          .ofOption ((n.type?.bind UnaryOp.ofTypeName?).bind fun op => op.result? v)
      | _ => .unknown := by
  rw [eval, Expr.ofNode]
  simp only [kind_of_operator h, h, if_true]
  split <;> rename_i hc <;> simp_all [Expr.eval, eval]

/-- A node without a meaning for evaluation. -/
def isOpaque (n : Node) : Bool :=
  match n.kind with
  | .constant | .columnRef | .cast | .case | .comparison _ | .conjunction _ => false
  | _ => !n.hasClass "OPERATOR"

theorem eval_of_isOpaque {row : Row} {n : Node} (h : n.isOpaque = true) :
    n.eval row = .unknown := by
  unfold isOpaque at h
  rw [eval, Expr.ofNode]
  split at h <;> simp_all [Expr.eval]

end Node

end PartitionPruning
