import PartitionPruning.DataType.Serialized
import PartitionPruning.Expr.Kind

/-! New expression nodes. Each has a class, a type, an empty alias and no position, as the front end
writes them. -/

namespace PartitionPruning

namespace Build

def zero : Node := .number (.integer 0 (by decide))

/-- The fields that all expressions begin with. -/
def header (exprClass type : String) : Fields Node :=
  [("class", .string exprClass), ("type", .string type), ("alias", .string ""),
   ("query_location", zero)]

def expression (exprClass type : String) (rest : Fields Node) : Node :=
  .object (header exprClass type ++ rest)

def plainType (id : String) : Node := DataType.typeObject id .null

/-- A constant of a type; a null has no payload. -/
def valueConstant (type value : Node) : Node :=
  expression "CONSTANT" "VALUE_CONSTANT"
    [("value", .object (("type", type) :: ("is_null", .bool value.isNull) ::
      if value.isNull then [] else [("value", value)]))]

/-- A column; more than one segment names a field of a struct. -/
def reference (path : List String) : Node :=
  expression "COLUMN_REF" "COLUMN_REF" [("column_names", .array (path.map .string))]

def nullConstant : Node := valueConstant (plainType "NULL") .null

/-- The type of a constant with this number: an integer of 32 or of 64 bits, or a double. -/
def numberTypeId (n : Number) : String :=
  match n.toInt64? with
  | some i => if -2 ^ 31 ≤ i.toInt ∧ i.toInt < 2 ^ 31 then "INTEGER" else "BIGINT"
  | none => "DOUBLE"

/-- A constant whose type follows from the scalar. -/
def constant : Node → Except Fault Node
  | .null => .ok nullConstant
  | .string s => .ok (valueConstant (plainType "VARCHAR") (.string s))
  | .bool b => .ok (valueConstant (plainType "BOOLEAN") (.bool b))
  | .number n => .ok (valueConstant (plainType (numberTypeId n)) (.number n))
  | n => .error (.unsupported (.constantFrom n.describe))

def varchar (value : String) : Node := valueConstant (plainType "VARCHAR") (.string value)

def typedConstant (value : Node) (type : DataType) : Node := valueConstant type.toTypeNode value

def castNode (child type : Node) : Node :=
  expression "CAST" "OPERATOR_CAST"
    [("child", child), ("cast_type", type), ("try_cast", .bool false)]

def cast (child : Node) (typeId : String) : Node := castNode child (plainType typeId)

def castAs (child : Node) (type : DataType) : Except Fault Node :=
  if type = .untyped then .error (.unsupported .untypedCast)
  else .ok (castNode child type.toTypeNode)

def comparison (op : CompareOp) (left right : Node) : Node :=
  expression "COMPARISON" op.typeName [("left", left), ("right", right)]

def conjunction (op : ConjunctionOp) (children : List Node) : Node :=
  expression "CONJUNCTION" op.typeName [("children", .array children)]

def isNull (child : Node) : Node :=
  expression "OPERATOR" "OPERATOR_IS_NULL" [("children", .array [child])]

def caseCheck (condition result : Node) : Node :=
  .object [("when_expr", condition), ("then_expr", result)]

def ifThenElse (condition result otherwise : Node) : Node :=
  expression "CASE" "CASE_EXPR"
    [("case_checks", .array [caseCheck condition result]), ("else_expr", otherwise)]

/-- The predicate that is true of everything, `CAST('t' AS BOOLEAN)`. -/
def trueLiteral : Node := cast (varchar "t") "BOOLEAN"

def falseLiteral : Node := cast (varchar "f") "BOOLEAN"

def baseTable (name : String) : Node :=
  .object [("type", .string "BASE_TABLE"), ("alias", .string ""), ("sample", .null),
    ("query_location", zero), ("schema_name", .string ""), ("table_name", .string name),
    ("column_name_alias", .array []), ("catalog_name", .string "")]

def noOrder : Node := .object [("type", .string "ORDER_MODIFIER"), ("orders", .array [])]

/-- A call of a function that is neither an aggregate nor an operator. -/
def function (name schema catalog : String) (children : List Node) : Node :=
  expression "FUNCTION" "FUNCTION"
    [("function_name", .string name), ("schema", .string schema), ("children", .array children),
     ("filter", .null), ("order_bys", noOrder), ("distinct", .bool false),
     ("is_operator", .bool false), ("export_state", .bool false), ("catalog", .string catalog)]

end Build

end PartitionPruning
