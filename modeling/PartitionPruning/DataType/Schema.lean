import PartitionPruning.DataType.Serialized
import PartitionPruning.Expr.Column

/-! The schema that a statement expects: its columns, nested ones as fields of structs, with the
types they are cast to. -/

namespace PartitionPruning

namespace StructType

/-- The struct with the field, which keeps its type if it is already there. -/
def getOrAdd (s : StructType) (name : String) (type : DataType) : StructType :=
  if Fields.contains s name then s else s ++ [(name, type)]

/-- The struct in which a path goes on below the field `name`, which is a new one if the field is
missing or untyped. A field of any other type is in the way. -/
def structAt (s : StructType) (name : String) : Except DataType StructType :=
  match Fields.get? s name with
  | none => .ok []
  | some (.scalar .null) => .ok []
  | some (.struct inner) => .ok inner
  | some other => .error other

/-- What a change of the struct in the field `name` makes of the whole, also where it ends in a
fault. -/
def inField (s : StructType) (name : String) :
    EStateM.Result Fault StructType Unit → EStateM.Result Fault StructType Unit
  | .ok _ inner => .ok () (Fields.insert s name (.struct inner))
  | .error fault inner => .error fault (Fields.insert s name (.struct inner))

/-- Adds the field at a path, which is a part of `whole`. -/
def addWithin (whole : List String) (type : DataType) :
    List String → StructType → EStateM.Result Fault StructType Unit
  | [], s => .error (.malformed .emptyColumnPath) s
  | [name], s => .ok () (getOrAdd s name type)
  | name :: rest, s =>
    match structAt s name with
    | .ok inner => inField s name (addWithin whole type rest inner)
    | .error other =>
      .error (.unsupported (.nestedField name other.sql (joinWith "." whole))) s

/-- Adds the field at a path in place, `c` and `x` for a field `x` of a struct `c`. A field that is
there keeps its type, and an untyped one on the way becomes a struct. The structs on the way are
made before it is known whether a field further down is in the way. -/
def addPathInPlace (path : List String) (type : DataType) : EStateM Fault StructType Unit :=
  addWithin path type path

def addPath (s : StructType) (path : List String) (type : DataType) : Except Fault StructType :=
  match addPathInPlace path type s with
  | .ok _ s => .ok s
  | .error fault _ => .error fault

mutual

/-- Some field at any depth of structs is untyped. -/
def isUntyped : DataType → Bool
  | .scalar t => t = .null
  | .struct fs => hasUntyped fs
  | _ => false

def hasUntyped : List (String × DataType) → Bool
  | [] => false
  | (_, t) :: fs => isUntyped t || hasUntyped fs

end

/-- The column that a cast is of, and the type that it is cast to. -/
def castColumn (cast : Node) : Except Fault (List String × DataType) := do
  let path ← (← cast.require "child").columnNames
  let type ← DataType.ofTypeNode (← cast.require "cast_type")
  pure (path, type)

def addCast (s : StructType) (cast : Node) : Except Fault StructType := do
  let (path, type) ← castColumn cast
  s.addPath path type

def addReference (s : StructType) (reference : Node) : Except Fault StructType := do
  s.addPath (← reference.columnNames) .untyped

/-- Adds the columns of an expression: first those that are cast, and then, if there are others,
all of them. -/
def addColumns (s : StructType) (n : Node) : Except Fault StructType := do
  let s ← n.referenceCasts.foldlM addCast s
  if n.references.length = n.referenceCasts.length then pure s
  else n.references.foldlM addReference s

def addClause (statement : Node) (s : StructType) (clause : String) : Except Fault StructType :=
  match statement.present? clause with
  | some n => s.addColumns n
  | none => .ok s

/-- The clauses of a statement that name its columns, in the order in which they are read. -/
def clauses : List String := ["select_list", "where_clause", "group_expressions"]

/-- The schema of a statement, from its select list, its WHERE clause and its groups. -/
def infer (statement : Node) : Except Fault StructType :=
  clauses.foldlM (addClause statement) []

end StructType

end PartitionPruning
