import PartitionPruning.Delta.Prune
import PartitionPruning.Hive.Prune
import PartitionPruning.Splits.Pack

/-! The splits of a query: its files, pruned by the kind of its table, in groups. -/

namespace PartitionPruning

/-- What a query reads from, by the name of its table function. -/
inductive TableSource where
  | hive (columns : List PartitionColumn)
  | delta
  deriving DecidableEq

structure TableRead where
  select : Node
  path : String
  source : TableSource
  deriving DecidableEq

namespace TableRead

def ofTree (tree : Node) : Except Fault TableRead := do
  let select ← firstStatement tree
  match select.tableFunction? with
  | none => .error (.unsupported .noTableFunction)
  | some function =>
    match select.tablePath? with
    | none => .error (.malformed (.noPathArgument function))
    | some path =>
      if function = "read_parquet" then pure ⟨select, path, .hive (← select.hiveTypes)⟩
      else if function = "read_delta" then pure ⟨select, path, .delta⟩
      else .error (.unsupported (.tableFunction function))

end TableRead

section

variable {m : Type → Type} [Monad m]

def TableRead.files (list : Lister m) (scan : DeltaScan m) (r : TableRead) :
    m (Except Failure (List FileStatus)) :=
  match r.source with
  | .hive columns => pruneHiveSelect list r.path r.select columns
  | .delta => pruneDeltaSelect scan r.path r.select

def splitsOf (list : Lister m) (scan : DeltaScan m) (tree : Node) (limit : UInt64) :
    m (Except Failure (List (List FileStatus))) := do
  match TableRead.ofTree tree with
  | .error fault => pure (.error (.fault fault))
  | .ok read =>
    match ← read.files list scan with
    | .error failure => pure (.error failure)
    | .ok files => pure (.ok (Splits.plan limit files))

end

/-- The FROM clause of a select on a list of files. -/
def replacePaths (select : Node) (paths : List String) : Except Fault Node := do
  match select.fromTable? with
  | none => .error (.malformed (.noFromClause select.describe))
  | some table =>
    match select.tableFunction? with
    | none => .error (.unsupported .fromClause)
    | some name =>
      let list := Build.function "list_value" "main" "" (paths.map Build.varchar)
      let call := Build.function (if name = "read_delta" then "read_parquet" else name) "" "" [list]
      select.withFromTable (← table.withField "function" call)

end PartitionPruning
