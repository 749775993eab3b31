import PartitionPruning.Text.Digits

/-! Partition values in directory names: special characters are written as a percent sign and two
hexadecimal digits. -/

namespace PartitionPruning

namespace DirectoryName

/-- A character that a directory name does not hold as it is. -/
def isSpecial (c : Char) : Bool :=
  (0x01 ≤ c.toNat && c.toNat ≤ 0x1F) || c.toNat == 0x7F ||
    ['"', '#', '%', '\'', '*', '/', ':', '=', '?', '\\', '\x7b', '[', ']', '^'].contains c

def upperHexDigit (n : Nat) : Char := if n < 10 then Char.ofNat (48 + n) else Char.ofNat (55 + n)

def escapeChar (c : Char) : List Char :=
  if isSpecial c then ['%', upperHexDigit (c.toNat / 16), upperHexDigit (c.toNat % 16)] else [c]

def escape : List Char → List Char
  | [] => []
  | c :: cs => escapeChar c ++ escape cs

def escaped? (a b : Char) : Option Char :=
  match hexDigit? a, hexDigit? b with
  | some a, some b => some (Char.ofNat (16 * a + b))
  | _, _ => none

/-- The text that a directory name stands for. A percent sign without two digits is one. -/
def unescape : List Char → List Char
  | [] => []
  | '%' :: a :: b :: rest =>
    match escaped? a b with
    | some c => c :: unescape rest
    | none => '%' :: unescape (a :: b :: rest)
  | c :: rest => c :: unescape rest

def ofValue (value : String) : String := .ofList (escape value.toList)

def toValue (name : String) : String := .ofList (unescape name.toList)

end DirectoryName

end PartitionPruning
