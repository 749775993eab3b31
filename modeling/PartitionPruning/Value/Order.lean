import PartitionPruning.Value.Parse

/-! Casts between types, and the order of values. -/

namespace PartitionPruning

namespace Value

/-- The value as one of a type, over its text if nothing else is laid down. -/
def cast (v : Value) (type : DataType) : Except Fault Value :=
  match v, type with
  | null, _ => .ok null
  | bool b, .scalar .boolean => .ok (bool b)
  | string s, .scalar .varchar => .ok (string s)
  | date d, .scalar .date => .ok (date d)
  | date d, .scalar .timestamp | date d, .scalar .timestampTz => .ok (timestamp (.atMidnight d))
  | timestamp t, .scalar .timestamp | timestamp t, .scalar .timestampTz => .ok (timestamp t)
  | timestamp t, .scalar .date => .ok (date t.date)
  | float x, .scalar .float | float x, .scalar .double => .ok (float x)
  | int n, .scalar .float | int n, .scalar .double => .ok (float (.ofInt n.toInt))
  | v, type => parse v.render type

/-- The order of two values; none with a null or between values of different kinds. Numbers of any
kinds have an order, and so have dates and timestamps. -/
def compare : Value → Value → Option Ordering
  | null, _ | _, null => none
  | bool a, bool b => some (Ord.compare a b)
  | int a, int b => some (Ord.compare a.toInt b.toInt)
  | decimal a, decimal b => some (a.compare b)
  | int a, decimal b => some ((Decimal.ofInt64 a).compare b)
  | decimal a, int b => some (a.compare (Decimal.ofInt64 b))
  | string a, string b => some (Ord.compare a b)
  | date a, date b => some (a.compare b)
  | timestamp a, timestamp b => some (a.compare b)
  | date a, timestamp b => some ((Timestamp.atMidnight a).compare b)
  | timestamp a, date b => some (a.compare (.atMidnight b))
  | a, b =>
    match a.toDouble?, b.toDouble? with
    | some x, some y => x.compare y
    | _, _ => none

/-- A text as a value of the kind of the other operand, which is how a constant without a type is
meant; any other value as it is. Nothing if the text cannot be read so. -/
def coerceLike (v other : Value) : Option Value :=
  match v, other with
  | string s, bool _ => parseBool? (trimmed s)
  | string s, int _ => parseInt? 64 (trimmed s)
  | string s, float _ => float <$> Double.read? (trimmed s)
  | string s, decimal _ => decimal <$> Decimal.read? (trimmed s)
  | string s, date _ => parseDate? (trimmed s)
  | string s, timestamp _ => parseTimestamp? (trimmed s)
  | v, _ => some v

end Value

end PartitionPruning
