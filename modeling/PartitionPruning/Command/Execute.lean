import PartitionPruning.DataType.Schema
import PartitionPruning.Fingerprint
import PartitionPruning.Hive.Filter
import PartitionPruning.Splits.Pack
import PartitionPruning.Statistics.Query

/-! The commands on texts of trees and of file lists. -/

namespace PartitionPruning

inductive ArgumentFault where
  | noSplitSize
  | noPartition
  | configAndColumns
  | noMapping
  deriving DecidableEq, Repr

def ArgumentFault.message : ArgumentFault → String
  | noSplitSize => "--max-split-size must be positive"
  | noPartition => "at least one --partition is required"
  | configAndColumns => "use either --config or --column, not both"
  | noMapping => "either --config or at least one --column is required"

inductive ReadFault where
  | notFound
  | reported (message : String)
  deriving DecidableEq, Repr

def ReadFault.message : ReadFault → String
  | notFound => "No such file or directory (os error 2)"
  | reported message => message

inductive CommandFault where
  | fault (cause : Fault)
  | json
  | read (cause : ReadFault)
  | noInput
  | invalidArgument (cause : ArgumentFault)
  deriving DecidableEq, Repr

def CommandFault.message : CommandFault → String
  | fault cause => cause.message
  | json => "Invalid JSON"
  | read cause => "IO error: " ++ cause.message
  | noInput => "No input provided. Use --input or pipe JSON to stdin."
  | invalidArgument cause => "Invalid argument: " ++ cause.message

instance : MonadLift (Except Fault) (Except CommandFault) where
  monadLift r := r.mapError .fault

/-- What a command answers: a changed tree, or something else in JSON. -/
inductive CommandResult where
  | tree (tree : Node)
  | json (value : Node)
  deriving DecidableEq

def CommandResult.node : CommandResult → Node
  | tree n | json n => n

inductive Command where
  | fingerprint
  | canonicalize
  | schema
  | pruneHive (partitions : List String)
  /-- `config` is the text of a written mapping. -/
  | pruneStats (config : Option String) (columns : List String) (table : Option String)
  | splits (limit : UInt64)
  deriving DecidableEq, Repr

namespace Command

def orFault {α : Type} (fault : CommandFault) : Option α → Except CommandFault α
  | some a => .ok a
  | none => .error fault

def readInput (input : Option String) : Except CommandFault Node := do
  orFault .json (Json.readTree (← orFault .noInput input))

def executeFingerprint (input : Option String) : Except CommandFault CommandResult := do
  let digest ← PartitionPruning.fingerprint (← readInput input)
  pure (.json (.object [("fingerprint", .string digest)]))

def executeCanonicalize (input : Option String) : Except CommandFault CommandResult := do
  let tree ← readInput input
  refuseFailedParse tree
  pure (.tree (← PartitionPruning.canonicalize tree))

def statementSchemas (tree : Node) : Except Fault (List StructType) := do
  (← statements tree).mapM StructType.infer

def executeSchema (input : Option String) : Except CommandFault CommandResult := do
  let tree ← readInput input
  let schemas ← statementSchemas tree
  pure (.json (.object
    [("schemas", .array (schemas.map fun s => .string (DataType.struct s).sql))]))

def executePruneHive (partitions : List String) (input : Option String) :
    Except CommandFault CommandResult := do
  if partitions.isEmpty then .error (.invalidArgument .noPartition)
  else
    let columns ← PartitionColumn.parseAll partitions
    let tree ← readInput input
    refuseFailedParse tree
    pure (.tree (← dropOtherPredicatesInTree (columns.map (·.name)) tree))

/-- The mapping of a written configuration or of columns, of which exactly one is given. -/
def statsMapping (config : Option String) (columns : List String) (table : Option String) :
    Except CommandFault StatsMapping := do
  match config, columns with
  | some text, [] =>
    let config ← orFault .json (StatsConfig.parse? text)
    { config with table := table.getD config.table }.toMapping
  | none, _ :: _ =>
    pure (.ofColumns (table.getD "stats") (← PartitionColumn.parseAll columns))
  | some _, _ :: _ => .error (.invalidArgument .configAndColumns)
  | none, [] => .error (.invalidArgument .noMapping)

def executePruneStats (config : Option String) (columns : List String) (table : Option String)
    (input : Option String) : Except CommandFault CommandResult := do
  let mapping ← statsMapping config columns table
  let tree ← readInput input
  refuseFailedParse tree
  pure (.tree (← mapping.restateTree tree))

def executeSplits (limit : UInt64) (input : Option String) : Except CommandFault CommandResult := do
  if limit = 0 then .error (.invalidArgument .noSplitSize)
  else
    let files ← orFault .json (FileStatus.parseList? (← orFault .noInput input))
    let groups := Splits.plan limit files
    pure (.json (.array (groups.map fun group => .array (group.map (·.toNode)))))

def execute (input : Option String) : Command → Except CommandFault CommandResult
  | fingerprint => executeFingerprint input
  | canonicalize => executeCanonicalize input
  | schema => executeSchema input
  | pruneHive partitions => executePruneHive partitions input
  | pruneStats config columns table => executePruneStats config columns table input
  | splits limit => executeSplits limit input

end Command

end PartitionPruning
