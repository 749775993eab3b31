import PartitionPruning.Numeric.DoubleText

/-! The numbers of JSON trees: integers that fit in 64 bits, with or without a sign, and finite
doubles. -/

namespace PartitionPruning

def leastInteger : Int := -2 ^ 63

/-- Integers of a tree stay below this. -/
def integerBound : Int := 2 ^ 64

inductive Number where
  | integer (value : Int) (range : leastInteger ≤ value ∧ value < integerBound)
  | float (value : FiniteDouble)
  deriving DecidableEq, Repr

namespace Number

def ofInt? (n : Int) : Option Number :=
  if h : leastInteger ≤ n ∧ n < integerBound then some (.integer n h) else none

def ofUInt8 (n : UInt8) : Number :=
  .integer n.toNat (by
    have := n.toNat_lt
    simp only [leastInteger, integerBound]
    omega)

def toInt64? : Number → Option Int64
  | integer n _ => PartitionPruning.toInt64? n
  | float _ => none

def toDouble : Number → Double
  | integer n _ => .ofInt n
  | float x => .finite x

/-- Equal as numbers of one kind: the zeros of the floats are equal, an integer equals no float. -/
def sameNumber : Number → Number → Bool
  | integer a _, integer b _ => a == b
  | float x, float y => x.sameNumber y
  | _, _ => false

def digits : Number → List Char
  | integer n _ => signedDigits n
  | float x => x.jsonDigits

end Number

end PartitionPruning
