import PartitionPruning.Tree.Json.Lexeme
import PartitionPruning.Tree.Node

/-! Reading JSON text. A tree is read to a limit of nesting; values whose content does not matter
can be passed over. -/

namespace PartitionPruning

namespace Json

/-! ### Lists between brackets -/

/-- Items with commas between them, up to the closing bracket; there is at least one. `fuel` bounds
their number. -/
def readItems {α : Type} (close : Char) (item : Reader α) : Nat → Reader (List α)
  | 0, _ => none
  | fuel + 1, cs =>
    (item cs).bind fun (x, rest) =>
      match skipSpace rest with
      | [] => none
      | c :: rest =>
        if c = ',' then (readItems close item fuel rest).map fun (xs, rest) => (x :: xs, rest)
        else if c = close then some ([x], rest)
        else none

/-- What follows an opening bracket, through the closing one. -/
def readList {α : Type} (close : Char) (item : Reader α) : Reader (List α) := fun cs =>
  match skipSpace cs with
  | [] => none
  | c :: rest => if c = close then some ([], rest) else readItems close item cs.length (c :: rest)

/-- A key, a colon and a value, whose reader may depend on the key. -/
def readMember {α : Type} (value : String → Reader α) : Reader (String × α) := fun cs =>
  match skipSpace cs with
  | '"' :: cs =>
    (readText cs).bind fun (key, rest) =>
      match skipSpace rest with
      | ':' :: rest =>
        (value (.ofList key) rest).map fun (v, rest) => ((.ofList key, v), rest)
      | _ => none
  | _ => none

/-! ### Trees -/

/-- A value with at most `limit` arrays and objects around any of its parts. -/
def readValue (limit : Nat) : Reader Node := fun cs =>
  match skipSpace cs with
  | 'n' :: 'u' :: 'l' :: 'l' :: rest => some (.null, rest)
  | 't' :: 'r' :: 'u' :: 'e' :: rest => some (.bool true, rest)
  | 'f' :: 'a' :: 'l' :: 's' :: 'e' :: rest => some (.bool false, rest)
  | '"' :: rest => (readText rest).map fun (s, rest) => (.string (.ofList s), rest)
  | '[' :: rest =>
    match limit with
    | 0 => none
    | limit + 1 =>
      (readList ']' (readValue limit) rest).map fun (xs, rest) => (.array xs, rest)
  | '\x7b' :: rest =>
    match limit with
    | 0 => none
    | limit + 1 =>
      (readList '\x7d' (readMember fun _ => readValue limit) rest).map fun (entries, rest) =>
        (.object (Fields.ofEntries entries), rest)
  | cs => (readNumber cs).map fun (n, rest) => (.number n, rest)

def readAll {α : Type} (value : Reader α) (text : String) : Option α :=
  (value text.toList).bind fun (v, rest) => if skipSpace rest = [] then some v else none

def nestingLimit : Nat := 127

def readTree (text : String) : Option Node := readAll (readValue nestingLimit) text

/-- Reads a tree of any depth. -/
def readDeepTree (text : String) : Option Node := readAll (readValue text.length) text

/-! ### Values that are not kept -/

def skipMember (value : Reader Unit) : Reader Unit := fun cs =>
  match skipSpace cs with
  | '"' :: cs =>
    (skipText cs).bind fun rest =>
      match skipSpace rest with
      | ':' :: rest => value rest
      | _ => none
  | _ => none

/-- Passes over a value. Strings need not spell characters and numbers may be of any size. -/
def skipWithin (limit : Nat) : Reader Unit := fun cs =>
  match skipSpace cs with
  | 'n' :: 'u' :: 'l' :: 'l' :: rest => some ((), rest)
  | 't' :: 'r' :: 'u' :: 'e' :: rest => some ((), rest)
  | 'f' :: 'a' :: 'l' :: 's' :: 'e' :: rest => some ((), rest)
  | '"' :: rest => (skipText rest).map fun rest => ((), rest)
  | '[' :: rest =>
    match limit with
    | 0 => none
    | limit + 1 => (readList ']' (skipWithin limit) rest).map fun (_, rest) => ((), rest)
  | '\x7b' :: rest =>
    match limit with
    | 0 => none
    | limit + 1 =>
      (readList '\x7d' (skipMember (skipWithin limit)) rest).map fun (_, rest) => ((), rest)
  | cs => (readNumberText cs).map fun (_, rest) => ((), rest)

def skipValue : Reader Unit := fun cs => skipWithin cs.length cs

end Json

end PartitionPruning
