import PartitionPruning.Expr.Column
import PartitionPruning.Proofs.Expr.Build

/-! The leaves of new expression nodes. A search for columns, constants or subqueries finds in a node
those of what it is built from, and none in the names and types that go with it. -/

namespace PartitionPruning

/-- The kinds of nodes that are collected from expressions. -/
def Kind.isLeaf : Kind → Bool
  | .columnRef | .constant | .subquery => true
  | _ => false

namespace Node

/-- The test holds of no nodes but leaves. -/
def IsLeafTest (p : Node → Bool) : Prop := ∀ n, p n = true → n.kind.isLeaf = true

theorem isLeafTest_isReference : IsLeafTest isReference := by
  intro n h
  have hkind : n.kind = .columnRef := by simpa [isReference] using h
  rw [hkind]
  rfl

theorem isLeafTest_isConstant : IsLeafTest isConstant := by
  intro n h
  have hkind : n.kind = .constant := by simpa [isConstant] using h
  rw [hkind]
  rfl

theorem isLeafTest_isSubquery : IsLeafTest isSubquery := by
  intro n h
  have hkind : n.kind = .subquery := by simpa [isSubquery] using h
  rw [hkind]
  rfl

/-- Every leaf has a class. -/
theorem isLeaf_kind_of_class? {n : Node} (h : n.class? = none) : n.kind.isLeaf = false := by
  unfold kind
  rw [h]
  split
  · rfl
  · dsimp only
    split <;> rfl

namespace IsLeafTest

variable {p : Node → Bool} (hp : IsLeafTest p)

include hp

theorem find_of_kind {n : Node} {k : Kind} (h : n.kind = k) (hk : k.isLeaf = false) :
    n.find p = n.searchChildren.flatMap (find p) := by
  apply find_of_false
  cases hn : p n with
  | false => rfl
  | true =>
    have hleaf := hp n hn
    rw [h, hk] at hleaf
    contradiction

theorem find_of_isScalar {n : Node} (h : n.isScalar = true) : n.find p = [] := by
  have hkind : n.kind = .other := by
    cases n <;> first | rfl | contradiction
  have hbelow : n.searchChildren = [] := by
    cases n <;> first | rfl | contradiction
  rw [hp.find_of_kind hkind rfl, hbelow, List.flatMap_nil]

theorem find_array (ns : List Node) : (array ns).find p = ns.flatMap (find p) :=
  hp.find_of_kind (k := .other) rfl rfl

end IsLeafTest

end Node

namespace Build

variable {p : Node → Bool} (hp : Node.IsLeafTest p)

include hp

theorem find_castNode (child type : Node) : (castNode child type).find p = child.find p := by
  rw [hp.find_of_kind (kind_castNode child type) rfl]
  show [child].flatMap (Node.find p) = _
  simp

theorem find_comparison (op : CompareOp) (left right : Node) :
    (comparison op left right).find p = left.find p ++ right.find p := by
  rw [hp.find_of_kind (kind_comparison op left right) rfl]
  show [left, right].flatMap (Node.find p) = _
  simp

theorem find_conjunction (op : ConjunctionOp) (children : List Node) :
    (conjunction op children).find p = children.flatMap (Node.find p) := by
  rw [hp.find_of_kind (kind_conjunction op children) rfl]
  rfl

theorem find_isNull (child : Node) : (isNull child).find p = child.find p := by
  have hclass : (isNull child).hasClass "OPERATOR" = true := by simp [Node.hasClass, isNull]
  rw [hp.find_of_kind (Node.kind_of_operator hclass) rfl]
  show [child].flatMap (Node.find p) = _
  simp

theorem find_caseCheck (condition result : Node) :
    (caseCheck condition result).find p = condition.find p ++ result.find p := by
  rw [hp.find_of_kind (k := .other) rfl rfl]
  show [condition, result].flatMap (Node.find p) = _
  simp

/-- The header of a node has only texts and numbers. -/
theorem find_header (exprClass type : String) :
    (Fields.values (header exprClass type)).flatMap (Node.find p) = [] := by
  apply List.flatMap_eq_nil_iff.mpr
  intro n hn
  apply hp.find_of_isScalar
  simp only [header, Fields.values, List.map_cons, List.map_nil, List.mem_cons,
    List.not_mem_nil, or_false] at hn
  rcases hn with rfl | rfl | rfl | rfl <;> rfl

/-- A column holds no other leaf. -/
theorem find_reference {path : List String} (h : p (reference path) = false) :
    (reference path).find p = [] := by
  rw [Node.find_of_false h]
  show (Fields.values (header "COLUMN_REF" "COLUMN_REF") ++
    [Node.array (path.map .string)]).flatMap (Node.find p) = []
  rw [List.flatMap_append, find_header hp]
  simp only [List.nil_append, List.flatMap_singleton, hp.find_array, List.flatMap_eq_nil_iff,
    List.mem_map]
  rintro _ ⟨segment, -, rfl⟩
  exact hp.find_of_isScalar rfl

theorem find_typeObject (id : String) (info : Node) :
    (DataType.typeObject id info).find p = info.find p := by
  rw [hp.find_of_kind rfl (Node.isLeaf_kind_of_class? rfl)]
  show [Node.string id, info].flatMap (Node.find p) = _
  simp [hp.find_of_isScalar (n := .string id) rfl]

theorem find_plainType (id : String) : (plainType id).find p = [] := by
  rw [plainType, find_typeObject hp, hp.find_of_isScalar rfl]

/-- A constant holds no other leaf, if its payload is a scalar and its type holds none. -/
theorem find_valueConstant {type value : Node} (htype : type.find p = [])
    (h : p (valueConstant type value) = false) (hvalue : value.isScalar = true) :
    (valueConstant type value).find p = [] := by
  have hpayload : (Node.object (("type", type) :: ("is_null", .bool value.isNull) ::
      if value.isNull then [] else [("value", value)])).find p = [] := by
    cases value.isNull with
    | true =>
      rw [hp.find_of_kind rfl (Node.isLeaf_kind_of_class? rfl)]
      show [type, .bool true].flatMap (Node.find p) = []
      simp [htype, hp.find_of_isScalar (n := .bool true) rfl]
    | false =>
      rw [hp.find_of_kind rfl (Node.isLeaf_kind_of_class? rfl)]
      show [type, .bool false, value].flatMap (Node.find p) = []
      simp [htype, hp.find_of_isScalar (n := .bool false) rfl, hp.find_of_isScalar hvalue]
  rw [Node.find_of_false h]
  show (Fields.values (header "CONSTANT" "VALUE_CONSTANT") ++ [_]).flatMap (Node.find p) = []
  rw [List.flatMap_append, find_header hp, List.nil_append, List.flatMap_singleton]
  exact hpayload

theorem find_function (name schema catalog : String) (children : List Node) :
    (function name schema catalog children).find p = children.flatMap (Node.find p) := by
  rw [hp.find_of_kind (kind_function name schema catalog children) rfl]
  rfl

/-- With neither operands nor children all fields of a node are searched. -/
theorem find_ifThenElse (condition result otherwise : Node) :
    (ifThenElse condition result otherwise).find p =
      condition.find p ++ result.find p ++ otherwise.find p := by
  rw [hp.find_of_kind (kind_ifThenElse condition result otherwise) rfl]
  show (Fields.values (header "CASE" "CASE_EXPR") ++
    [.array [caseCheck condition result], otherwise]).flatMap (Node.find p) = _
  rw [List.flatMap_append, find_header hp]
  simp [hp.find_array, find_caseCheck hp]

/-! ### Types -/

theorem find_childType (child : Node) :
    (DataType.typeInfo "LIST_TYPE_INFO" [("child_type", child)]).find p = child.find p := by
  rw [hp.find_of_kind rfl (Node.isLeaf_kind_of_class? rfl)]
  show [Node.string "LIST_TYPE_INFO", .string "", child].flatMap (Node.find p) = _
  simp [hp.find_of_isScalar (n := .string _) rfl]

theorem find_childTypes (children : List Node) :
    (DataType.typeInfo "STRUCT_TYPE_INFO" [("child_types", .array children)]).find p =
      children.flatMap (Node.find p) := by
  rw [hp.find_of_kind rfl (Node.isLeaf_kind_of_class? rfl)]
  show [Node.string "STRUCT_TYPE_INFO", .string "", .array children].flatMap (Node.find p) = _
  simp [hp.find_of_isScalar (n := .string _) rfl, hp.find_array]

theorem find_structField (name : String) (type : Node) :
    (DataType.structField name type).find p = type.find p := by
  rw [hp.find_of_kind rfl (Node.isLeaf_kind_of_class? rfl)]
  show [Node.string name, type].flatMap (Node.find p) = _
  simp [hp.find_of_isScalar (n := .string name) rfl]

theorem find_scalarInfo (type : ScalarType) : (DataType.scalarInfo type).find p = [] := by
  cases type with
  | decimal width scale =>
    rw [DataType.scalarInfo, hp.find_of_kind rfl (Node.isLeaf_kind_of_class? rfl)]
    show [Node.string _, .string _, .number _, .number _].flatMap (Node.find p) = []
    simp [hp.find_of_isScalar (n := .string _) rfl, hp.find_of_isScalar (n := .number _) rfl]
  | _ => exact hp.find_of_isScalar rfl

/-- The type object of a type holds no leaf. -/
theorem find_toTypeNode (type : DataType) : type.toTypeNode.find p = [] := by
  induction type using DataType.partInduction with
  | scalar type => rw [DataType.toTypeNode, find_typeObject hp, find_scalarInfo hp]
  | list type ih => rw [DataType.toTypeNode, find_typeObject hp, find_childType hp, ih]
  | map key value hkey hvalue =>
    rw [DataType.toTypeNode, find_typeObject hp, find_childType hp, find_typeObject hp,
      find_childTypes hp]
    simp [find_structField hp, hkey, hvalue]
  | struct fs ih =>
    rw [DataType.toTypeNode, find_typeObject hp, find_childTypes hp, DataType.toFieldNodes_eq,
      List.flatMap_eq_nil_iff, List.forall_mem_map]
    intro f hf
    rw [find_structField hp, ih f hf]

end Build

namespace Build

theorem references_trueLiteral : trueLiteral.references = [] := by decide +kernel

theorem references_reference (path : List String) :
    (reference path).references = [reference path] := by
  apply Node.find_of_true
  simp [Node.isReference, kind_reference]

theorem literals_reference (path : List String) : (reference path).literals = [] := by
  apply find_reference Node.isLeafTest_isConstant
  simp [Node.isConstant, kind_reference]

theorem references_comparison (op : CompareOp) (left right : Node) :
    (comparison op left right).references = left.references ++ right.references :=
  find_comparison Node.isLeafTest_isReference op left right

theorem literals_comparison (op : CompareOp) (left right : Node) :
    (comparison op left right).literals = left.literals ++ right.literals :=
  find_comparison Node.isLeafTest_isConstant op left right

end Build

end PartitionPruning
