import PartitionPruning.Listing.File
import PartitionPruning.Listing.Segments

/-! Listing the files of a directory tree. -/

namespace PartitionPruning

/-- A file, or a directory with its entries in the order in which it enumerates them. -/
inductive FileTree where
  | file (size : UInt64) (lastModified : Int64)
  | directory (entries : List (String × FileTree))
  deriving Inhabited

namespace FileTree

def emptyDirectory : FileTree := directory []

/-- What is at a path; a file has nothing below it. -/
def find : FileTree → List String → Except ListingFault FileTree
  | tree, [] => .ok tree
  | file _ _, _ :: _ => .error .notDirectory
  | directory entries, name :: names =>
    match Fields.get? entries name with
    | some tree => find tree names
    | none => .error .notFound

/-- The tree with the entry at a path changed. Directories on the way are made as needed, and a file
in the way gives place to one. -/
def changeAt (change : FileTree → FileTree) : List String → FileTree → FileTree
  | [], tree => change tree
  | name :: names, tree =>
    let entries := match tree with
      | directory entries => entries
      | file _ _ => []
    let below := (Fields.get? entries name).getD emptyDirectory
    directory (Fields.insert entries name (changeAt change names below))

def addFile (size : UInt64) (lastModified : Int64) (path : List String) (tree : FileTree) :
    FileTree :=
  changeAt (fun _ => file size lastModified) path tree

/-- The tree with a directory at a path, which keeps its entries if it is there. -/
def addDirectory (path : List String) (tree : FileTree) : FileTree :=
  changeAt
    (fun
      | directory entries => directory entries
      | file _ _ => emptyDirectory)
    path tree

/-- The names on a path, without those that lead nowhere. -/
def pathNames (path : String) : List String :=
  ((splitAll '/' path.toList).map String.ofList).filter fun name => name ≠ "" && name ≠ "."

end FileTree

def joinPath (directory name : String) : String :=
  if directory = "" ∨ directory.toList.getLast? = some '/' then directory ++ name
  else directory ++ "/" ++ name

/-- What follows the last point of a name, unless nothing stands before that point. -/
def extension? (name : String) : Option String :=
  let after := name.toList.reverse.takeWhile (· ≠ '.')
  match name.toList.reverse.drop after.length with
  | _ :: _ :: _ => some (.ofList after.reverse)
  | _ => none

structure LocalLister where
  extension : String
  deriving DecidableEq, Repr

namespace LocalLister

/-- The extension may be written with a point in front. -/
def ofExtension (extension : String) : LocalLister :=
  ⟨.ofList (extension.toList.dropWhile (· = '.'))⟩

def parquet : LocalLister := ofExtension "parquet"

/-- A file as it is listed, with the values of all directories between it and `base`. -/
def listedFile (base path : String) (size : UInt64) (lastModified : Int64) :
    Except Fault ListedFile := do
  let partitions ← partitionSegments base path (relativeDirectories base path).length
  pure ⟨⟨path, size, lastModified⟩, partitions⟩

mutual

/-- The files with the extension exactly `depth` directories below `directory`, in the order in
which they are met. -/
def walk (l : LocalLister) (base path : String) (depth : Nat) (name : String) :
    FileTree → Except Fault (List ListedFile)
  | .file size lastModified =>
    if depth = 0 ∧ extension? name = some l.extension then
      (fun f => [f]) <$> listedFile base path size lastModified
    else .ok []
  | .directory entries =>
    match depth with
    | 0 => .ok []
    | depth + 1 => walkEntries l base path depth entries

def walkEntries (l : LocalLister) (base directory : String) (depth : Nat) :
    List (String × FileTree) → Except Fault (List ListedFile)
  | [] => .ok []
  | (name, tree) :: entries => do
    let files ← walk l base (joinPath directory name) depth name tree
    let others ← walkEntries l base directory depth entries
    pure (files ++ others)

end

def sortByPath (files : List ListedFile) : List ListedFile :=
  files.mergeSort fun a b => decide (a.status.path ≤ b.status.path)

/-- The files `depth` directories below `base` in a file system with `root` at its top. -/
def list (l : LocalLister) (root : FileTree) (base : String) (depth : Nat) :
    Except Fault (List ListedFile) :=
  match root.find (FileTree.pathNames base) with
  | .ok (.directory entries) => sortByPath <$> walkEntries l base base depth entries
  | .ok (.file _ _) => .error (.listing base .notDirectory)
  | .error cause => .error (.listing base cause)

end LocalLister

end PartitionPruning
