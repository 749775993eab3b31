import PartitionPruning.DataType.Basic
import PartitionPruning.Tree.Node

/-! Serialized types: objects with an `id` and a `type_info`, as casts and constants carry them. -/

namespace PartitionPruning

/-- A required field, with the fact that it is smaller than the node. -/
def Node.requireWithin (n : Node) (key : String) :
    Except Fault { v : Node // sizeOf v < sizeOf n } :=
  match h : n.require key with
  | .ok v => .ok ⟨v, sizeOf_lt_of_require h⟩
  | .error e => .error e

def decimalParameter (what : String) (n : Int64) : Except Fault UInt8 :=
  if 0 ≤ n.toInt ∧ n.toInt < 256 then .ok (.ofNat n.toInt.toNat)
  else .error (.conversion (intText n.toInt) what)

def decimalType (width scale : Int64) : Except Fault ScalarType := do
  let width ← decimalParameter "DECIMAL width" width
  let scale ← decimalParameter "DECIMAL scale" scale
  pure (.decimal width scale)

def scalarIds : List (String × ScalarType) :=
  [("NULL", .null), ("SQLNULL", .null), ("BOOLEAN", .boolean), ("BIT", .bit),
   ("TINYINT", .tinyInt), ("SMALLINT", .smallInt), ("INTEGER", .integer), ("BIGINT", .bigInt),
   ("FLOAT", .float), ("DOUBLE", .double), ("VARCHAR", .varchar), ("BLOB", .blob),
   ("DATE", .date), ("TIME", .time), ("TIMESTAMP", .timestamp), ("TIMESTAMP_MS", .timestamp),
   ("TIMESTAMP_NS", .timestamp), ("TIMESTAMP_SEC", .timestamp),
   ("TIMESTAMP WITH TIME ZONE", .timestampTz), ("TIMESTAMP_TZ", .timestampTz),
   ("INTERVAL", .interval)]

namespace DataType

/-- A map from the type of its entries, a struct of two fields. -/
def ofEntryType : DataType → Except Fault DataType
  | struct [(_, key), (_, value)] => .ok (map key value)
  | other => .error (.malformed (.mapEntryType other.sql))

def ofTypeNode (n : Node) : Except Fault DataType := do
  match (← n.require "id").text? with
  | none => .error (.malformed .typeIdType)
  | some id =>
    match Fields.get? scalarIds id with
    | some t => pure (scalar t)
    | none =>
      if id = "DECIMAL" then
        let info ← n.require "type_info"
        let width ← info.require "width"
        let scale ← info.require "scale"
        match width.int64?, scale.int64? with
        | some width, some scale => scalar <$> decimalType width scale
        | _, _ => .error (.malformed .decimalParameters)
      else if id = "LIST" then
        let ⟨info, _⟩ ← n.requireWithin "type_info"
        let ⟨child, _⟩ ← info.requireWithin "child_type"
        list <$> ofTypeNode child
      else if id = "MAP" then
        let ⟨info, _⟩ ← n.requireWithin "type_info"
        let ⟨child, _⟩ ← info.requireWithin "child_type"
        (← ofTypeNode child).ofEntryType
      else if id = "STRUCT" then
        let ⟨info, _⟩ ← n.requireWithin "type_info"
        let ⟨children, _⟩ ← info.requireWithin "child_types"
        match h : children.items? with
        | none => .error (.malformed .structFieldsType)
        | some fields =>
          struct <$> fields.attach.mapM fun ⟨field, hf⟩ => do
            match (← field.require "first").text? with
            | none => .error (.malformed .structFieldName)
            | some name =>
              let ⟨second, _⟩ ← field.requireWithin "second"
              have := Node.sizeOf_lt_of_mem_items? h hf
              pure (name, ← ofTypeNode second)
      else .error (.unsupported (.dataType id))
termination_by sizeOf n
decreasing_by all_goals omega

/-- A type object without parameters. -/
def typeObject (id : String) (info : Node) : Node :=
  .object [("id", .string id), ("type_info", info)]

/-- The parameters of a type, under the name of their layout. -/
def typeInfo (layout : String) (parameters : Fields Node) : Node :=
  .object (("type", .string layout) :: ("alias", .string "") :: parameters)

def structField (name : String) (type : Node) : Node :=
  .object [("first", .string name), ("second", type)]

def scalarInfo : ScalarType → Node
  | .decimal width scale =>
    typeInfo "DECIMAL_TYPE_INFO"
      [("width", .number (.ofUInt8 width)), ("scale", .number (.ofUInt8 scale))]
  | _ => .null

mutual

/-- The type object of a type. A map is written as the list of its entries. -/
def toTypeNode : DataType → Node
  | scalar t => typeObject t.id (scalarInfo t)
  | list t => typeObject "LIST" (typeInfo "LIST_TYPE_INFO" [("child_type", toTypeNode t)])
  | map k v =>
    typeObject "MAP" (typeInfo "LIST_TYPE_INFO"
      [("child_type", typeObject "STRUCT" (typeInfo "STRUCT_TYPE_INFO"
        [("child_types", .array
          [structField "key" (toTypeNode k), structField "value" (toTypeNode v)])]))])
  | struct fs =>
    typeObject "STRUCT" (typeInfo "STRUCT_TYPE_INFO" [("child_types", .array (toFieldNodes fs))])

def toFieldNodes : List (String × DataType) → List Node
  | [] => []
  | (name, t) :: fs => structField name (toTypeNode t) :: toFieldNodes fs

end

end DataType

end PartitionPruning
