import PartitionPruning.Expr.Evaluate
import PartitionPruning.Hive.Filter
import PartitionPruning.Hive.DirectoryName
import PartitionPruning.Listing.File

/-! Pruning the files of a table whose partition values are in its directory names. -/

namespace PartitionPruning

def defaultPartition : String := "__HIVE_DEFAULT_PARTITION__"

/-- What stands before the first slash with a star behind it. -/
def beforeWildcard : List Char → List Char
  | [] => []
  | '/' :: '*' :: _ => []
  | c :: cs => c :: beforeWildcard cs

def baseDirectory (path : String) : String := .ofList (beforeWildcard path.toList)

/-- The value of a partition column in a directory name, if it can be read as one. -/
def partitionValue? (column : PartitionColumn) (raw : String) : Option Value :=
  if DirectoryName.toValue raw = defaultPartition then some .null
  else (Value.parse (DirectoryName.toValue raw) column.type).toOption

def extendRow (row : Row) : List PartitionColumn → List String → Option Row
  | [], _ => some row
  | _ :: _, [] => none
  | column :: columns, raw :: raws =>
    (partitionValue? column raw).bind fun v =>
      extendRow (Fields.insert row column.name v) columns raws

/-- The partition values of a file, if all of them can be read. -/
def rowOfDirectories? (columns : List PartitionColumn) (raws : List String) : Option Row :=
  if raws.length < columns.length then none else extendRow [] columns raws

def partitionPredicate (columns : List PartitionColumn) (filter : Option Node) : Node :=
  match filter with
  | some filter => partitionPart (columns.map (·.name)) filter
  | none => Build.trueLiteral

/-- A file is kept unless its partition values make the predicate false. -/
def keepsFile (columns : List PartitionColumn) (predicate : Node) (file : ListedFile) :
    Except Failure Bool :=
  match rowOfDirectories? columns file.partitions with
  | none => .ok true
  | some row =>
    match predicate.satisfied row with
    | .known b => .ok b
    | .unknown => .ok true
    | .aborted => .error .abort

def keepFiles (columns : List PartitionColumn) (predicate : Node) :
    List ListedFile → Except Failure (List FileStatus)
  | [] => .ok []
  | file :: files => do
    let keep ← keepsFile columns predicate file
    let rest ← keepFiles columns predicate files
    pure (if keep then file.status :: rest else rest)

/-- The files that may hold rows of a filter, out of a listing. Without partition columns all files
are taken. -/
def selectFiles (columns : List PartitionColumn) (filter : Option Node) (files : List ListedFile) :
    Except Failure (List FileStatus) :=
  if columns.isEmpty then .ok (files.map (·.status))
  else keepFiles columns (partitionPredicate columns filter) files

section

variable {m : Type → Type} [Monad m]

/-- Lists the files that stand a number of directories below a base directory. -/
abbrev Lister (m : Type → Type) := String → Nat → m (Except Fault (List ListedFile))

/-- The files below `base` that may hold rows of a filter. -/
def pruneHive (list : Lister m) (base : String) (filter : Option Node)
    (columns : List PartitionColumn) : m (Except Failure (List FileStatus)) := do
  match ← list (baseDirectory base) columns.length with
  | .ok files => pure (selectFiles columns filter files)
  | .error fault => pure (.error (.fault fault))

def pruneHiveSelect (list : Lister m) (base : String) (select : Node)
    (columns : List PartitionColumn) : m (Except Failure (List FileStatus)) :=
  pruneHive list base select.whereClause? columns

end

end PartitionPruning
