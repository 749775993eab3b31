import PartitionPruning.DataType.Serialized
import PartitionPruning.Text.Blank
import PartitionPruning.Text.Split

/-! SQL names of types, and declarations of partition columns. -/

namespace PartitionPruning

/-- The scalar types without parameters, by all of their SQL names in upper case. -/
def scalarNames : List (String × ScalarType) :=
  [("NULL", .null), ("BOOLEAN", .boolean), ("BOOL", .boolean), ("LOGICAL", .boolean),
   ("BIT", .bit), ("BITSTRING", .bit), ("TINYINT", .tinyInt), ("INT1", .tinyInt),
   ("SMALLINT", .smallInt), ("INT2", .smallInt), ("SHORT", .smallInt), ("INTEGER", .integer),
   ("INT", .integer), ("INT4", .integer), ("SIGNED", .integer), ("BIGINT", .bigInt),
   ("INT8", .bigInt), ("LONG", .bigInt), ("FLOAT", .float), ("FLOAT4", .float), ("REAL", .float),
   ("DOUBLE", .double), ("FLOAT8", .double), ("DECIMAL", .decimal 18 3),
   ("NUMERIC", .decimal 18 3), ("VARCHAR", .varchar), ("STRING", .varchar), ("TEXT", .varchar),
   ("CHAR", .varchar), ("BPCHAR", .varchar), ("BLOB", .blob), ("BYTEA", .blob),
   ("BINARY", .blob), ("VARBINARY", .blob), ("DATE", .date), ("TIME", .time),
   ("TIMESTAMP", .timestamp), ("DATETIME", .timestamp), ("TIMESTAMP_NTZ", .timestamp),
   ("TIMESTAMPTZ", .timestampTz), ("TIMESTAMP WITH TIME ZONE", .timestampTz),
   ("INTERVAL", .interval)]

def afterWord? (word : String) (cs : List Char) : Option (List Char) := afterPrefix? word.toList cs

/-- A number with white space around it, and what follows. -/
def readParameter? (cs : List Char) : Option (List Char × List Char) :=
  let (digits, rest) := spanDigits (skipBlanks cs)
  if digits = [] then none else some (digits, skipBlanks rest)

/-- The digits of the width and of the scale, if there is one, of a decimal type with parameters
between parentheses. -/
def readDecimalName? (cs : List Char) : Option (List Char × Option (List Char)) := do
  let rest ← afterWord? "DECIMAL" cs <|> afterWord? "NUMERIC" cs
  let rest ← afterWord? "(" (skipBlanks rest)
  let (width, rest) ← readParameter? rest
  match rest with
  | [')'] => some (width, none)
  | ',' :: rest =>
    let (scale, rest) ← readParameter? rest
    if rest = [')'] then some (width, some scale) else none
  | _ => none

/-- What stands before a final pair of brackets. -/
def listElementName? (cs : List Char) : Option (List Char) :=
  match cs.reverse with
  | ']' :: '[' :: rest => some rest.reverse
  | _ => none

theorem length_lt_of_listElementName? {cs rest : List Char}
    (h : listElementName? cs = some rest) : rest.length < cs.length := by
  unfold listElementName? at h
  split at h
  · rename_i hr
    have := congrArg List.length hr
    simp only [List.length_reverse, List.length_cons, Option.some.injEq] at this h
    rw [← h, List.length_reverse]
    omega
  · simp at h

theorem length_trimBlanks_le (cs : List Char) : (trimBlanks cs).length ≤ cs.length := by
  have h (ds : List Char) : (skipBlanks ds).length ≤ ds.length :=
    (List.dropWhile_sublist isBlank).length_le
  unfold trimBlanks
  have := h (skipBlanks cs).reverse
  have := h cs
  simp only [List.length_reverse] at *
  omega

def plainName (cs : List Char) : List Char := (trimBlanks cs).map Char.toUpper

namespace DataType

def ofScalarName (plain : List Char) : Option (Except Fault ScalarType) :=
  match readDecimalName? plain with
  | some (width, scale) => do
    let width ← toInt64? (readDigits 0 width)
    let scale ← toInt64? (readDigits 0 (scale.getD ['0']))
    some (decimalType width scale)
  | none => (Fields.get? scalarNames (.ofList plain)).map .ok

/-- The type of an SQL name: a scalar type, or a list of a type. Maps and structs have no name. -/
def ofName (name : List Char) : Except Fault DataType :=
  match h : listElementName? (plainName name) with
  | some element =>
    have := length_lt_of_listElementName? h
    list <$> ofName element
  | none =>
    match ofScalarName (plainName name) with
    | some t => scalar <$> t
    | none => .error (.unsupported (.dataType (.ofList (trimBlanks name))))
termination_by name.length
decreasing_by
  have := length_trimBlanks_le name
  simp only [plainName, List.length_map] at *
  omega

def parse (name : String) : Except Fault DataType := ofName name.toList

end DataType

structure PartitionColumn where
  name : String
  type : DataType
  deriving DecidableEq

/-- Reads `name` or `name:TYPE`; without a type it is `VARCHAR`. -/
def PartitionColumn.parse (spec : String) : Except Fault PartitionColumn := do
  let (name, type) := match splitFirst? ':' spec.toList with
    | some (name, type) => (trimBlanks name, some (trimBlanks type))
    | none => (trimBlanks spec.toList, none)
  if name = [] ∨ name.any isBlank ∨ type = some [] then
    .error (.unsupported (.columnSpec spec))
  else
    let type ← match type with
      | some type => DataType.ofName type
      | none => pure (.scalar .varchar)
    pure ⟨.ofList name, type⟩

def PartitionColumn.parseAll (specs : List String) : Except Fault (List PartitionColumn) :=
  specs.mapM PartitionColumn.parse

end PartitionPruning
