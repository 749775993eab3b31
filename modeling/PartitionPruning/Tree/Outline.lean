import PartitionPruning.Text.Shown
import PartitionPruning.Tree.Node

/-! The outline of a node: a text that names the kind of every part. Failures to convert a payload
quote it. -/

namespace PartitionPruning

/-- A character inside a quoted text of an outline. -/
def outlineChar (c : Char) : List Char :=
  if c = '\x00' then ['\\', '0']
  else if c = '\t' then ['\\', 't']
  else if c = '\r' then ['\\', 'r']
  else if c = '\n' then ['\\', 'n']
  else if c = '"' then ['\\', '"']
  else if c = '\\' then ['\\', '\\']
  else if isShown c then [c]
  else '\\' :: 'u' :: '\x7b' :: Nat.toDigits 16 c.toNat ++ ['\x7d']

def outlineText (s : String) : String := .ofList ('"' :: s.toList.flatMap outlineChar ++ ['"'])

namespace Node

mutual

def outline : Node → String
  | null => "Null"
  | bool b => if b then "Boolean(true)" else "Boolean(false)"
  | .number n => "Number(Number(" ++ .ofList n.digits ++ "))"
  | string s => "String(" ++ outlineText s ++ ")"
  | array [] => "Array([])"
  | array (x :: xs) => "Array([" ++ outline x ++ outlineItems xs ++ "])"
  | object [] => "Object(Fields \x7b entries: [] \x7d)"
  | object ((k, v) :: fs) =>
    "Object(Fields \x7b entries: [(" ++ outlineText k ++ ", " ++ outline v ++ ")" ++
      outlineFields fs ++ "] \x7d)"

/-- The items after the first. -/
def outlineItems : List Node → String
  | [] => ""
  | x :: xs => ", " ++ outline x ++ outlineItems xs

def outlineFields : List (String × Node) → String
  | [] => ""
  | (k, v) :: fs => ", (" ++ outlineText k ++ ", " ++ outline v ++ ")" ++ outlineFields fs

end

end Node

end PartitionPruning
