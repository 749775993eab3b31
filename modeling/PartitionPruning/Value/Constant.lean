import PartitionPruning.DataType.Serialized
import PartitionPruning.Tree.Outline
import PartitionPruning.Value.Basic

/-! The values of constants in a tree. -/

namespace PartitionPruning

/-- What ends a computation without a result. -/
inductive Failure where
  | fault (cause : Fault)
  /-- A constant has more decimal places than a decimal can hold; nothing recovers from this. -/
  | abort
  deriving DecidableEq, Repr

instance : MonadLift (Except Fault) (Except Failure) where
  monadLift r := r.mapError .fault

namespace Value

/-- The value of a payload that is not null: dates are days from 1970-01-01, timestamps
microseconds, and decimals integers that count the last decimal place. -/
def ofPayload (raw : Node) (type : DataType) : Except Failure Value :=
  let fit (v : Option Value) : Except Failure Value :=
    match v with
    | some v => .ok v
    | none => .error (.fault (.conversion raw.outline type.sql))
  match type with
  | .scalar .null => .ok null
  | .scalar .varchar => fit (string <$> raw.text?)
  | .scalar .boolean => fit (bool <$> raw.bool?)
  | .scalar .tinyInt | .scalar .smallInt | .scalar .integer | .scalar .bigInt =>
    fit (int <$> raw.int64?)
  | .scalar .float | .scalar .double => fit (float <$> raw.double?)
  | .scalar (.decimal _ scale) =>
    match raw.int64? with
    | none => fit none
    | some n =>
      match Decimal.ofInt64? n scale.toNat with
      | some d => .ok (decimal d)
      | none => .error .abort
  | .scalar .date => fit (raw.int64?.bind fun n => date <$> Date.ofEpochDay? n.toInt)
  | .scalar .timestamp | .scalar .timestampTz =>
    fit (raw.int64?.bind fun n => timestamp <$> Timestamp.ofEpochMicros? n.toInt)
  | _ => .error (.fault (.unsupported (.constantType type.sql)))

def ofConstant (constant : Node) : Except Failure Value := do
  let payload ← constant.require "value"
  if (payload.field? "is_null").bind Node.bool? = some true then pure null
  else
    let type ← DataType.ofTypeNode (← payload.require "type")
    let raw ← payload.require "value"
    ofPayload raw type

end Value

end PartitionPruning
