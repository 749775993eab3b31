import PartitionPruning.Expr.Build
import PartitionPruning.Expr.Column
import PartitionPruning.Proofs.DataType.Serialized
import PartitionPruning.Proofs.Expr.Conjunction
import PartitionPruning.Proofs.Expr.Evaluation
import PartitionPruning.Proofs.Failure

/-! The values of new expression nodes, in terms of the values of what they are built from. -/

namespace PartitionPruning

theorem CompareOp.ofTypeName?_typeName (op : CompareOp) : ofTypeName? op.typeName = some op := by
  cases op <;> decide

theorem ConjunctionOp.ofTypeName?_typeName (op : ConjunctionOp) :
    ofTypeName? op.typeName = some op := by
  cases op <;> decide

namespace Build

/-! ### Shape -/

section

variable {exprClass type : String} {rest : Fields Node}

@[simp] theorem class?_expression : (expression exprClass type rest).class? = some exprClass := rfl

@[simp] theorem type?_expression : (expression exprClass type rest).type? = some type := rfl

end

theorem kind_valueConstant (type value : Node) : (valueConstant type value).kind = .constant := by
  simp [Node.kind, valueConstant]

theorem kind_reference (path : List String) : (reference path).kind = .columnRef := by
  simp [Node.kind, reference]

theorem kind_castNode (child type : Node) : (castNode child type).kind = .cast := by
  simp [Node.kind, castNode]

theorem kind_comparison (op : CompareOp) (left right : Node) :
    (comparison op left right).kind = .comparison op := by
  simp [Node.kind, comparison, CompareOp.ofTypeName?_typeName]

theorem kind_conjunction (op : ConjunctionOp) (children : List Node) :
    (conjunction op children).kind = .conjunction op := by
  simp [Node.kind, conjunction, ConjunctionOp.ofTypeName?_typeName]

theorem kind_ifThenElse (condition result otherwise : Node) :
    (ifThenElse condition result otherwise).kind = .case := by
  simp [Node.kind, ifThenElse]

theorem kind_function (name schema catalog : String) (children : List Node) :
    (function name schema catalog children).kind = .function := by
  simp [Node.kind, function]

/-! ### Values -/

variable {row : Row}

theorem eval_castNode (child type : Node) :
    (castNode child type).eval row = (child.eval row).bind fun v =>
      .ofOption ((DataType.ofTypeNode type).toOption.bind fun t => (v.cast t).toOption) := by
  rw [Node.eval_of_cast (kind_castNode child type)]
  rfl

theorem castAs_eq_ok {child n : Node} {type : DataType} (h : castAs child type = .ok n) :
    n = castNode child type.toTypeNode := by
  unfold castAs at h
  split at h
  · cases h
  · exact (Except.ok.inj h).symm

theorem columnNames_reference (name : String) : (reference [name]).columnNames = .ok [name] := by
  rfl

theorem columnNames_of_ne_nil {path : List String} (h : path ≠ []) :
    (reference path).columnNames = .ok path := by
  cases path with
  | nil => contradiction
  | cons name path =>
    show ((name :: path).map Node.string).mapM Node.nameSegment = .ok (name :: path)
    rw [mapM_eq_ok, List.map_map]
    rfl

theorem eval_reference (name : String) :
    (reference [name]).eval row = .ofOption (Fields.get? row name) := by
  rw [Node.eval_of_columnRef (kind_reference [name]), columnNames_reference]

theorem eval_comparison (op : CompareOp) (left right : Node) :
    (comparison op left right).eval row = (left.eval row).bind fun a =>
      (right.eval row).bind fun b => .ofOption (op.result? a b) := by
  rw [Node.eval_of_comparison (kind_comparison op left right)]
  rfl

theorem eval_conjunction (op : ConjunctionOp) (children : List Node) :
    (conjunction op children).eval row = Node.evalAll row op children := by
  rw [Node.eval_of_conjunction (kind_conjunction op children)]
  rfl

theorem eval_isNull (child : Node) :
    (isNull child).eval row = (child.eval row).bind fun v => .known (.bool v.isNull) := by
  have hclass : (isNull child).hasClass "OPERATOR" = true := by simp [Node.hasClass, isNull]
  rw [Node.eval_of_operator hclass]
  rfl

theorem eval_ifThenElse (condition result otherwise : Node) (h : otherwise ≠ .null) :
    (ifThenElse condition result otherwise).eval row = (condition.eval row).bind fun v =>
      match v with
      | .bool true => result.eval row
      | .bool false | .null => otherwise.eval row
      | _ => .unknown := by
  have helse : (ifThenElse condition result otherwise).present? "else_expr" = some otherwise := by
    cases otherwise <;> first | rfl | exact absurd rfl h
  have hchecks : (ifThenElse condition result otherwise).itemsOf? "case_checks" =
      some [caseCheck condition result] := rfl
  rw [Node.eval_of_case (kind_ifThenElse condition result otherwise), hchecks]
  simp only [Node.evalChecks, Node.evalElse, helse]
  rfl

/-- A constant of a type with an identifier has the value that the type reads from its payload. -/
theorem ofConstant_valueConstant {id : String} {type : ScalarType} {raw : Node}
    (h : Fields.get? scalarIds id = some type) (hraw : raw ≠ .null) :
    Value.ofConstant (valueConstant (plainType id) raw) =
      Value.ofPayload raw (.scalar type) := by
  have htype : DataType.ofTypeNode (plainType id) = .ok (.scalar type) :=
    DataType.ofTypeNode_typeObject _ h
  have hbind : Value.ofConstant (valueConstant (plainType id) raw) =
      (liftM (DataType.ofTypeNode (plainType id)) >>= Value.ofPayload raw) := by
    cases raw with
    | null => exact absurd rfl hraw
    | _ => rfl
  rw [hbind, htype]
  rfl

theorem ofConstant_varchar (s : String) : Value.ofConstant (varchar s) = .ok (.string s) := by
  have hid : Fields.get? scalarIds "VARCHAR" = some .varchar := rfl
  rw [varchar, ofConstant_valueConstant hid (by simp)]
  rfl

theorem eval_varchar (s : String) : (varchar s).eval row = .known (.string s) := by
  rw [Node.eval_of_constant (by exact kind_valueConstant _ _), ofConstant_varchar]
  rfl

theorem eval_trueLiteral : trueLiteral.eval row = .known (.bool true) := by
  have htype : DataType.ofTypeNode (plainType "BOOLEAN") = .ok (.scalar .boolean) :=
    DataType.ofTypeNode_typeObject _ rfl
  rw [trueLiteral, cast, eval_castNode, eval_varchar, htype]
  decide

end Build

end PartitionPruning
