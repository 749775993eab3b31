import PartitionPruning.Tree.Json.Record

/-! Data files. -/

namespace PartitionPruning

/-- A data file: its size in bytes and the milliseconds from 1970-01-01 to its last change. -/
structure FileStatus where
  path : String
  size : UInt64
  lastModified : Int64
  deriving DecidableEq, Repr

/-- A file of a listing, with the values of its partition directories as they are written,
outermost first. -/
structure ListedFile where
  status : FileStatus
  partitions : List String
  deriving DecidableEq, Repr

namespace FileStatus

inductive Field where
  | path (s : String)
  | size (n : UInt64)
  | lastModified (n : Int64)

def Field.path? : Field → Option String
  | path s => some s
  | _ => none

def Field.size? : Field → Option UInt64
  | size n => some n
  | _ => none

def Field.lastModified? : Field → Option Int64
  | lastModified n => some n
  | _ => none

def fields : Fields (Reader Field) :=
  [("path", fun cs => (Json.readStringValue cs).map fun (s, rest) => (.path s, rest)),
   ("size", fun cs => (Json.readUInt64Value cs).map fun (n, rest) => (.size n, rest)),
   ("last_modified",
      fun cs => (Json.readInt64Value cs).map fun (n, rest) => (.lastModified n, rest))]

def ofFields? (values : List Field) : Option FileStatus := do
  let path ← Json.once? Field.path? values
  let size ← Json.once? Field.size? values
  let lastModified ← Json.once? Field.lastModified? values
  pure ⟨path, size, lastModified⟩

def read : Reader FileStatus := fun cs =>
  (Json.readRecord fields cs).bind fun (values, rest) => (ofFields? values).map fun f => (f, rest)

def parseList? (text : String) : Option (List FileStatus) :=
  Json.readAll (Json.readArrayOf read) text

theorem uint64_mem (n : UInt64) :
    leastInteger ≤ (n.toNat : Int) ∧ (n.toNat : Int) < integerBound := by
  have := n.toNat_lt
  simp only [leastInteger, integerBound]
  omega

theorem int64_mem (n : Int64) : leastInteger ≤ n.toInt ∧ n.toInt < integerBound := by
  have := n.le_toInt
  have := n.toInt_lt
  simp only [leastInteger, integerBound]
  omega

def toNode (f : FileStatus) : Node :=
  .object [("path", .string f.path), ("size", .number (.integer f.size.toNat (uint64_mem f.size))),
    ("last_modified", .number (.integer f.lastModified.toInt (int64_mem f.lastModified)))]

end FileStatus

end PartitionPruning
