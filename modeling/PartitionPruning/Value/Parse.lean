import PartitionPruning.DataType.Basic
import PartitionPruning.Fault
import PartitionPruning.Text.Blank
import PartitionPruning.Value.Basic

/-! Reading a text as a value of a type. -/

namespace PartitionPruning

/-- The text is an integer in digits, with at most a minus in front. -/
def isIntegerText : List Char → Bool
  | '-' :: cs => !cs.isEmpty && cs.all Char.isDigit
  | cs => !cs.isEmpty && cs.all Char.isDigit

namespace Value

def parseBool? (text : String) : Option Value :=
  let word := String.ofList (text.toList.map Char.toLower)
  if word = "true" ∨ word = "t" ∨ word = "1" then some (bool true)
  else if word = "false" ∨ word = "f" ∨ word = "0" then some (bool false)
  else none

def parseInt? (bits : Nat) (text : String) : Option Value :=
  (readInt64? text).bind fun n =>
    if -2 ^ (bits - 1) ≤ n.toInt ∧ n.toInt < 2 ^ (bits - 1) then some (int n) else none

/-- A date, or its number of days from 1970-01-01. -/
def parseDate? (text : String) : Option Value :=
  date <$>
    if isIntegerText text.toList then
      (readInt64? text).bind fun days => Date.ofEpochDay? days.toInt
    else readDate? text.toList

def parseTimestamp? (text : String) : Option Value :=
  timestamp <$>
    if isIntegerText text.toList then
      (readInt64? text).bind fun millis => Timestamp.ofEpochMillis? millis.toInt
    else readTimestamp? text.toList

def parse (raw : String) (type : DataType) : Except Fault Value :=
  let fit (v : Option Value) : Except Fault Value :=
    match v with
    | some v => .ok v
    | none => .error (.conversion raw type.sql)
  match type with
  | .scalar .null | .scalar .varchar => .ok (string raw)
  | .scalar .boolean => fit (parseBool? (trimmed raw))
  | .scalar .tinyInt => fit (parseInt? 8 (trimmed raw))
  | .scalar .smallInt => fit (parseInt? 16 (trimmed raw))
  | .scalar .integer => fit (parseInt? 32 (trimmed raw))
  | .scalar .bigInt => fit (parseInt? 64 (trimmed raw))
  | .scalar .float | .scalar .double => fit (float <$> Double.read? (trimmed raw))
  | .scalar (.decimal _ scale) =>
    fit ((Decimal.read? (trimmed raw)).map fun d => decimal (d.round scale.toNat))
  | .scalar .date => fit (parseDate? (trimmed raw))
  | .scalar .timestamp | .scalar .timestampTz => fit (parseTimestamp? (trimmed raw))
  | _ => .error (.unsupported (.textValue type.sql))

end Value

end PartitionPruning
