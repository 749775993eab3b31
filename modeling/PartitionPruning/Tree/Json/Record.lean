import PartitionPruning.Tree.Json.Reader

/-! Records in JSON text. A record is an object, whose unknown members are passed over, or an array
of its fields in order, from which fields at the end may be missing. -/

namespace PartitionPruning

namespace Json

/-! ### Fields of records -/

def readStringValue : Reader String := fun cs =>
  match skipSpace cs with
  | '"' :: rest => (readText rest).map fun (s, rest) => (.ofList s, rest)
  | _ => none

def readOptionalString : Reader (Option String) := fun cs =>
  match skipSpace cs with
  | 'n' :: 'u' :: 'l' :: 'l' :: rest => some (none, rest)
  | _ => (readStringValue cs).map fun (s, rest) => (some s, rest)

def readIntegerValue : Reader Int := fun cs =>
  (readNumber (skipSpace cs)).bind fun (n, rest) =>
    match n with
    | .integer n _ => some (n, rest)
    | .float _ => none

def readUInt64Value : Reader UInt64 := fun cs =>
  (readIntegerValue cs).bind fun (n, rest) => (toUInt64? n).map fun n => (n, rest)

def readInt64Value : Reader Int64 := fun cs =>
  (readIntegerValue cs).bind fun (n, rest) => (toInt64? n).map fun n => (n, rest)

def readArrayOf {α : Type} (item : Reader α) : Reader (List α) := fun cs =>
  match skipSpace cs with
  | '[' :: rest => readList ']' item rest
  | _ => none

/-! ### Records -/

/-- The values after the first, up to the closing bracket. -/
def readPositions {α : Type} : List (Reader α) → Reader (List α)
  | [], cs =>
    match skipSpace cs with
    | ']' :: rest => some ([], rest)
    | _ => none
  | field :: fields, cs =>
    match skipSpace cs with
    | ']' :: rest => some ([], rest)
    | ',' :: rest =>
      (field rest).bind fun (x, rest) =>
        (readPositions fields rest).map fun (xs, rest) => (x :: xs, rest)
    | _ => none

/-- An array of a record's fields, after its opening bracket. -/
def readTuple {α : Type} : List (Reader α) → Reader (List α)
  | [], cs => readPositions [] cs
  | field :: fields, cs =>
    match skipSpace cs with
    | ']' :: rest => some ([], rest)
    | _ =>
      (field cs).bind fun (x, rest) =>
        (readPositions fields rest).map fun (xs, rest) => (x :: xs, rest)

/-- A member of a record; nothing for one that is not a field. -/
def readField {α : Type} (fields : Fields (Reader α)) (key : String) :
    Reader (Option α) := fun cs =>
  match Fields.get? fields key with
  | some field => (field cs).map fun (x, rest) => (some x, rest)
  | none => (skipValue cs).map fun (_, rest) => (none, rest)

def readRecord {α : Type} (fields : Fields (Reader α)) : Reader (List α) := fun cs =>
  match skipSpace cs with
  | '[' :: rest => readTuple (Fields.values fields) rest
  | '\x7b' :: rest =>
    (readList '\x7d' (readMember (readField fields)) rest).map fun (members, rest) =>
      (members.filterMap Prod.snd, rest)
  | _ => none

/-- The value of a field that stands exactly once. -/
def once? {α β : Type} (select : α → Option β) (values : List α) : Option β :=
  match values.filterMap select with
  | [b] => some b
  | _ => none

def atMostOnce? {α β : Type} (select : α → Option β) (values : List α) : Option (Option β) :=
  match values.filterMap select with
  | [] => some none
  | [b] => some (some b)
  | _ => none

end Json

end PartitionPruning
