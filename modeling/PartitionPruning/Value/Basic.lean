import PartitionPruning.Calendar.Pattern
import PartitionPruning.Numeric.DecimalText
import PartitionPruning.Numeric.DoubleText

/-! Typed values: partition values of a file, and the constants of predicates. -/

namespace PartitionPruning

inductive Value where
  | null
  | bool (b : Bool)
  | int (n : Int64)
  | float (x : Double)
  | decimal (d : Decimal)
  | string (s : String)
  | date (d : Date)
  /-- A timestamp without a zone; one that had a zone is in UTC. -/
  | timestamp (t : Timestamp)
  deriving DecidableEq

abbrev Row := List (String × Value)

namespace Value

def isNull : Value → Bool
  | null => true
  | _ => false

def sameValue : Value → Value → Bool
  | float x, float y => x.sameNumber y
  | decimal a, decimal b => a.sameNumber b
  | v, w => v = w

def toDouble? : Value → Option Double
  | int n => some (.ofInt n.toInt)
  | float x => some x
  | decimal d => some d.toDouble
  | _ => none

def render : Value → String
  | null => "NULL"
  | bool b => if b then "true" else "false"
  | int n => intText n.toInt
  | float x => x.text
  | decimal d => d.text
  | string s => s
  | date d => .ofList d.render
  | timestamp t => .ofList t.render

end Value

end PartitionPruning
