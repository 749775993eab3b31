import PartitionPruning.Tree.Node

/-! JSON text of trees: on one line, indented, and canonical, where equal trees up to the order of
fields have the same text. -/

namespace PartitionPruning

namespace Json

def hexChars (width n : Nat) : List Char :=
  let digits := Nat.toDigits 16 n
  List.replicate (width - digits.length) '0' ++ digits

/-- A character inside a string: the quote, the backslash and the control characters below U+0020
are escaped. -/
def escapeChar (c : Char) : List Char :=
  if c = '"' then ['\\', '"']
  else if c = '\\' then ['\\', '\\']
  else if c = '\x08' then ['\\', 'b']
  else if c = '\x0c' then ['\\', 'f']
  else if c = '\n' then ['\\', 'n']
  else if c = '\r' then ['\\', 'r']
  else if c = '\t' then ['\\', 't']
  else if c.toNat < 0x20 then '\\' :: 'u' :: hexChars 4 c.toNat
  else [c]

def escapeText : List Char → List Char
  | [] => []
  | c :: cs => escapeChar c ++ escapeText cs

def quoted (s : String) : List Char := '"' :: escapeText s.toList ++ ['"']

def boolText (b : Bool) : List Char :=
  if b then ['t', 'r', 'u', 'e'] else ['f', 'a', 'l', 's', 'e']

/-! ### On one line -/

mutual

def compact : Node → List Char
  | .null => ['n', 'u', 'l', 'l']
  | .bool b => boolText b
  | .number n => n.digits
  | .string s => quoted s
  | .array [] => ['[', ']']
  | .array (x :: xs) => '[' :: compact x ++ compactItems xs
  | .object [] => ['\x7b', '\x7d']
  | .object ((k, v) :: fs) => '\x7b' :: quoted k ++ ':' :: compact v ++ compactFields fs

/-- The items after the first, and the closing bracket. -/
def compactItems : List Node → List Char
  | [] => [']']
  | x :: xs => ',' :: compact x ++ compactItems xs

def compactFields : List (String × Node) → List Char
  | [] => ['\x7d']
  | (k, v) :: fs => ',' :: quoted k ++ ':' :: compact v ++ compactFields fs

end

/-! ### Indented -/

def newLine (depth : Nat) : List Char := '\n' :: List.replicate (2 * depth) ' '

mutual

def indented (depth : Nat) : Node → List Char
  | .array (x :: xs) =>
    '[' :: newLine (depth + 1) ++ indented (depth + 1) x ++ indentedItems depth xs
  | .object ((k, v) :: fs) =>
    '\x7b' :: newLine (depth + 1) ++ quoted k ++ ':' :: ' ' :: indented (depth + 1) v ++
      indentedFields depth fs
  | .null => ['n', 'u', 'l', 'l']
  | .bool b => boolText b
  | .number n => n.digits
  | .string s => quoted s
  | .array [] => ['[', ']']
  | .object [] => ['\x7b', '\x7d']

def indentedItems (depth : Nat) : List Node → List Char
  | [] => newLine depth ++ [']']
  | x :: xs => ',' :: newLine (depth + 1) ++ indented (depth + 1) x ++ indentedItems depth xs

def indentedFields (depth : Nat) : List (String × Node) → List Char
  | [] => newLine depth ++ ['\x7d']
  | (k, v) :: fs =>
    ',' :: newLine (depth + 1) ++ quoted k ++ ':' :: ' ' :: indented (depth + 1) v ++
      indentedFields depth fs

end

/-! ### Canonical -/

def sortByKey {α : Type} (fs : Fields α) : Fields α :=
  fs.mergeSort fun a b => decide (a.1 ≤ b.1)

mutual

/-- The tree with the fields of every object in the order of their keys. -/
def sorted : Node → Node
  | .array xs => .array (sortedItems xs)
  | .object fs => .object (sortByKey (sortedFields fs))
  | .null => .null
  | .bool b => .bool b
  | .number n => .number n
  | .string s => .string s

def sortedItems : List Node → List Node
  | [] => []
  | x :: xs => sorted x :: sortedItems xs

def sortedFields : List (String × Node) → List (String × Node)
  | [] => []
  | (k, v) :: fs => (k, sorted v) :: sortedFields fs

end

end Json

namespace Node

def toJson (n : Node) : String := .ofList (Json.compact n)

def toPrettyJson (n : Node) : String := .ofList (Json.indented 0 n)

/-- The text on one line with the fields of all objects sorted. -/
def toCanonicalJson (n : Node) : String := (Json.sorted n).toJson

end Node

end PartitionPruning
