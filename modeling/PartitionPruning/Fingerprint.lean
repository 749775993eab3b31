import PartitionPruning.Digest.Sha256
import PartitionPruning.Expr.Build
import PartitionPruning.Statement
import PartitionPruning.Tree.Replace

/-! Fingerprints of queries. Queries that differ only in the values of their texts, integers and
decimals, and in positions, have the same fingerprint. -/

namespace PartitionPruning

def one : Node := .number (.integer 1 (by decide))

def minusOne : Node := .number (.integer (-1) (by decide))

/-- The payload of a constant with a placeholder as its value, for the types that have one. -/
def placeholder? (payload type : Node) : Except Fault (Option Node) :=
  match (type.field? "id").bind Node.text? with
  | some "VARCHAR" => some <$> payload.withField "value" (.string "?")
  | some "INTEGER" => some <$> payload.withField "value" minusOne
  | some "DECIMAL" => do
    let info ← type.require "type_info"
    let info ← info.withField "width" one
    let info ← info.withField "scale" one
    let payload ← payload.withField "value" minusOne
    some <$> payload.withField "type" (← type.withField "type_info" info)
  | _ => .ok none

/-- A constant without its value. -/
def canonicalConstant (constant : Node) : Except Fault Node := do
  let payload ← constant.require "value"
  if (payload.field? "is_null").bind Node.bool? = some true then pure constant
  else
    match ← placeholder? payload (← payload.require "type") with
    | some payload => constant.withField "value" payload
    | none => pure constant

mutual

def clearPositions : Node → Node
  | .array xs => .array (clearItemPositions xs)
  | .object fs => .object (clearFieldPositions fs)
  | .null => .null
  | .bool b => .bool b
  | .number n => .number n
  | .string s => .string s

def clearItemPositions : List Node → List Node
  | [] => []
  | x :: xs => clearPositions x :: clearItemPositions xs

def clearFieldPositions : List (String × Node) → List (String × Node)
  | [] => []
  | (key, v) :: fs =>
    (key, if key = "query_location" then Build.zero else clearPositions v) ::
      clearFieldPositions fs

end

/-- The tree without the values of its constants and without positions. -/
def canonicalize (tree : Node) : Except Fault Node :=
  clearPositions <$> tree.replaceM Node.isConstant canonicalConstant

/-- The digest of the canonical text of a parse result. -/
def fingerprint (tree : Node) : Except Fault String := do
  refuseFailedParse tree
  let canonical ← canonicalize tree
  pure (sha256 canonical.toCanonicalJson)

end PartitionPruning
