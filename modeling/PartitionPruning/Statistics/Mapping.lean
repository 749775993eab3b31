import PartitionPruning.DataType.Name
import PartitionPruning.Tree.Json.Record

/-! Where the statistics of each column are: the table that holds them, and the columns of least and
greatest values. -/

namespace PartitionPruning

/-- The columns with the least and the greatest value of a column, and its type. -/
structure StatsColumn where
  min : String
  max : String
  type : DataType
  deriving DecidableEq

structure StatsMapping where
  table : String
  columns : Fields StatsColumn
  deriving DecidableEq

namespace StatsMapping

def empty (table : String) : StatsMapping := ⟨table, []⟩

def withColumn (m : StatsMapping) (name : String) (column : StatsColumn) : StatsMapping :=
  { m with columns := Fields.insert m.columns name column }

def get? (m : StatsMapping) (name : String) : Option StatsColumn := Fields.get? m.columns name

end StatsMapping

def minName (column : String) : String := "min_" ++ column

def maxName (column : String) : String := "max_" ++ column

/-- The mapping that takes every column to those named after it. -/
def StatsMapping.ofColumns (table : String) (columns : List PartitionColumn) : StatsMapping :=
  columns.foldl
    (fun m c => m.withColumn c.name ⟨minName c.name, maxName c.name, c.type⟩) (.empty table)

/-! ### Written mappings -/

structure StatsColumnConfig where
  name : String
  type : String
  min : Option String
  max : Option String
  deriving DecidableEq

structure StatsConfig where
  table : String
  columns : List StatsColumnConfig
  deriving DecidableEq

namespace StatsColumnConfig

inductive Field where
  | name (s : String)
  | type (s : String)
  | min (s : Option String)
  | max (s : Option String)

def Field.name? : Field → Option String
  | name s => some s
  | _ => none

def Field.type? : Field → Option String
  | type s => some s
  | _ => none

def Field.min? : Field → Option (Option String)
  | min s => some s
  | _ => none

def Field.max? : Field → Option (Option String)
  | max s => some s
  | _ => none

def fields : Fields (Reader Field) :=
  [("name", fun cs => (Json.readStringValue cs).map fun (s, rest) => (.name s, rest)),
   ("data_type", fun cs => (Json.readStringValue cs).map fun (s, rest) => (.type s, rest)),
   ("min", fun cs => (Json.readOptionalString cs).map fun (s, rest) => (.min s, rest)),
   ("max", fun cs => (Json.readOptionalString cs).map fun (s, rest) => (.max s, rest))]

def ofFields? (values : List Field) : Option StatsColumnConfig := do
  let name ← Json.once? Field.name? values
  let type ← Json.once? Field.type? values
  let min ← Json.atMostOnce? Field.min? values
  let max ← Json.atMostOnce? Field.max? values
  pure ⟨name, type, min.join, max.join⟩

def read : Reader StatsColumnConfig := fun cs =>
  (Json.readRecord fields cs).bind fun (values, rest) => (ofFields? values).map fun c => (c, rest)

/-- The fields as they are written; a missing name is left out. -/
def toNode (c : StatsColumnConfig) : Node :=
  .object ([("name", .string c.name), ("data_type", .string c.type)] ++
    c.min.toList.map (fun s => ("min", .string s)) ++
    c.max.toList.map (fun s => ("max", .string s)))

/-- The columns that the written column names; those without a name are named after it. -/
def toColumn (c : StatsColumnConfig) : Except Fault StatsColumn := do
  let type ← DataType.parse c.type
  pure ⟨c.min.getD (minName c.name), c.max.getD (maxName c.name), type⟩

end StatsColumnConfig

namespace StatsConfig

inductive Field where
  | table (s : String)
  | columns (cs : List StatsColumnConfig)

def Field.table? : Field → Option String
  | table s => some s
  | _ => none

def Field.columns? : Field → Option (List StatsColumnConfig)
  | columns cs => some cs
  | _ => none

def fields : Fields (Reader Field) :=
  [("stats_table", fun cs => (Json.readStringValue cs).map fun (s, rest) => (.table s, rest)),
   ("columns", fun cs =>
      (Json.readArrayOf StatsColumnConfig.read cs).map fun (c, rest) => (.columns c, rest))]

def ofFields? (values : List Field) : Option StatsConfig := do
  let table ← Json.once? Field.table? values
  let columns ← Json.once? Field.columns? values
  pure ⟨table, columns⟩

def parse? (text : String) : Option StatsConfig :=
  (Json.readAll (Json.readRecord fields) text).bind ofFields?

def toNode (c : StatsConfig) : Node :=
  .object [("stats_table", .string c.table), ("columns", .array (c.columns.map (·.toNode)))]

def toMapping (c : StatsConfig) : Except Fault StatsMapping :=
  c.columns.foldlM (fun m column => do pure (m.withColumn column.name (← column.toColumn)))
    (.empty c.table)

end StatsConfig

end PartitionPruning
