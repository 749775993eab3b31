import PartitionPruning.Fault
import PartitionPruning.Text.Split

/-! Partition directories, `key=value`, in the paths of files. -/

namespace PartitionPruning

/-- The names in a path below `base`, without empty ones. A path that does not begin with `base` is
taken as a whole. -/
def relativeSegments (base path : String) : List (List Char) :=
  let below := afterPrefix? (dropTrailing (· = '/') base.toList) path.toList
  (splitAll '/' (below.getD path.toList)).filter fun name => !name.isEmpty

def relativeDirectories (base path : String) : List (List Char) :=
  (relativeSegments base path).dropLast

def directoryValue (path : String) (directory : List Char) : Except Fault String :=
  match splitFirst? '=' directory with
  | some (_ :: _, value) => .ok (.ofList value)
  | _ => .error (.listing path (.notPartition (.ofList directory)))

/-- The values of the first `depth` directories of a path below `base`, as they are written. -/
def partitionSegments (base path : String) (depth : Nat) : Except Fault (List String) :=
  let directories := relativeDirectories base path
  if directories.length < depth then
    .error (.listing path (.missingDirectories depth directories.length))
  else (directories.take depth).mapM (directoryValue path)

end PartitionPruning
