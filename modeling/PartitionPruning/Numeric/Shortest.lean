import PartitionPruning.Numeric.Double

/-! The shortest decimal that reads back as a given double. For one significant digit, then two,
and so on, the value's two neighbours on the grid of decimals with that many digits are read
back; the first grid with a hit wins, and of two hits the nearer. -/

namespace PartitionPruning

/-- The number `digits * 10 ^ exponent`. -/
structure DecimalDigits where
  digits : Nat
  exponent : Int
  deriving DecidableEq, Repr

namespace DecimalDigits

def toDouble (d : DecimalDigits) (negative : Bool) : Double :=
  .ofDecimal negative d.digits d.exponent

/-- Moves trailing zeros of the digits into the exponent. -/
def strip (d : DecimalDigits) : DecimalDigits :=
  if h : d.digits ≠ 0 ∧ d.digits % 10 = 0 then strip ⟨d.digits / 10, d.exponent + 1⟩ else d
termination_by d.digits
decreasing_by omega

end DecimalDigits

namespace FiniteDouble

/-- The exponent of the first significant decimal digit of a double other than zero. -/
def decimalExponent (x : FiniteDouble) : Int :=
  ((Nat.toDigits 10 (x.units * 10 ^ 400 / 2 ^ 1074)).length : Int) - 401

/-- The better of the two neighbours of a magnitude on the grid of multiples of `10 ^ exponent`
among those that read back as it. -/
def neighbour? (tie : Tie) (x : FiniteDouble) (exponent : Int) : Option DecimalDigits :=
  let num := x.units * 10 ^ (-exponent).toNat
  let den := 2 ^ 1074 * 10 ^ exponent.toNat
  let below : DecimalDigits := ⟨num / den, exponent⟩
  let above : DecimalDigits := ⟨num / den + 1, exponent⟩
  let magnitude := Double.finite { x with negative := false }
  match decide (below.toDouble false = magnitude), decide (above.toDouble false = magnitude) with
  | true, true => some ⟨roundDiv tie num den, exponent⟩
  | true, false => some below
  | false, true => some above
  | false, false => none

def exactDigits (x : FiniteDouble) : DecimalDigits :=
  ⟨x.units * 5 ^ 1074, -1074⟩

/-- The shortest decimal that reads back as a double other than zero, without trailing zeros;
`tie` decides between two that are equally near. -/
def shortest (tie : Tie) (x : FiniteDouble) : DecimalDigits :=
  let lead := x.decimalExponent
  let found := (List.range 17).findSome? fun (n : Nat) => x.neighbour? tie (lead - n)
  (found.getD x.exactDigits).strip

end FiniteDouble

end PartitionPruning
