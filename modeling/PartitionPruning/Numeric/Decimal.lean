import PartitionPruning.Numeric.Double
import PartitionPruning.Numeric.Rounding

/-! Fixed-point decimals: a coefficient of at most 96 bits over a power of ten up to `10 ^ 28`. -/

namespace PartitionPruning

def maxScale : Nat := 28

def coefficientBound : Nat := 2 ^ 96

/-- The number `coefficient / 10 ^ scale`. A decimal keeps its places, so `1` and `1.00` are two
decimals with one value. A zero may be negative, which only its text and its double show. -/
structure Decimal where
  negative : Bool
  magnitude : Nat
  scale : Nat
  magnitude_lt : magnitude < coefficientBound
  scale_le : scale ≤ maxScale
  deriving DecidableEq, Repr

namespace Decimal

def coefficient (d : Decimal) : Int := if d.negative then -(d.magnitude : Int) else d.magnitude

def of? (coefficient : Int) (scale : Nat) : Option Decimal :=
  if h : coefficient.natAbs < coefficientBound ∧ scale ≤ maxScale then
    some ⟨decide (coefficient < 0), coefficient.natAbs, scale, h.1, h.2⟩
  else none

def ofInt64? (n : Int64) (scale : Nat) : Option Decimal := of? n.toInt scale

def ofInt64 (n : Int64) : Decimal where
  negative := decide (n.toInt < 0)
  magnitude := n.toInt.natAbs
  scale := 0
  magnitude_lt := by
    have h1 := n.le_toInt
    have h2 := n.toInt_lt
    have : coefficientBound = 2 ^ 96 := rfl
    omega
  scale_le := by decide

/-- The order of the values: both are brought to the product of the two powers of ten. -/
def compare (a b : Decimal) : Ordering :=
  Ord.compare (a.coefficient * 10 ^ b.scale) (b.coefficient * 10 ^ a.scale)

def sameNumber (a b : Decimal) : Bool := a.compare b == .eq

/-- The magnitude without its last `dropped` digits, rounded. -/
def shortened (tie : Tie) (magnitude dropped : Nat) : Nat := roundDiv tie magnitude (10 ^ dropped)

theorem shortened_lt {tie : Tie} {magnitude dropped : Nat} (h : magnitude < coefficientBound)
    (hd : 0 < dropped) : shortened tie magnitude dropped < coefficientBound := by
  have hle := roundDiv_le tie magnitude (10 ^ dropped)
  have hten : 10 ≤ 10 ^ dropped := by
    calc 10 = 10 ^ 1 := rfl
      _ ≤ 10 ^ dropped := Nat.pow_le_pow_right (by decide) hd
  have hdiv : magnitude / 10 ^ dropped ≤ magnitude / 10 := Nat.div_le_div_left hten (by decide)
  have : coefficientBound = 2 ^ 96 := rfl
  unfold shortened
  omega

/-- The decimal with at most `places` places, rounded half to even. Places are never added. A value
that is rounded to zero has no sign, while a zero keeps its own. -/
def round (places : Nat) (d : Decimal) : Decimal :=
  if h : places < d.scale then
    let rounded := shortened .toEven d.magnitude (d.scale - places)
    { negative := d.negative && (d.magnitude = 0 || rounded ≠ 0)
      magnitude := rounded
      scale := places
      magnitude_lt := shortened_lt d.magnitude_lt (by omega)
      scale_le := by have := d.scale_le; omega }
  else d

/-- The decimal over `10 ^ places`, up to the largest scale. What then has no room is rounded off, a
half away from zero, and the sign stays even if nothing is left. -/
def divPower (places : Nat) (d : Decimal) : Decimal :=
  if h : d.scale + places ≤ maxScale then { d with scale := d.scale + places, scale_le := h }
  else
    { negative := d.negative
      magnitude := shortened .up d.magnitude (d.scale + places - maxScale)
      scale := maxScale
      magnitude_lt := shortened_lt d.magnitude_lt (by omega)
      scale_le := Nat.le_refl _ }

/-- The decimal times `10 ^ places`, if it is in range: places are used up first. -/
def mulPower? (places : Nat) (d : Decimal) : Option Decimal :=
  if places ≤ d.scale then
    some { d with scale := d.scale - places, scale_le := by have := d.scale_le; omega }
  else of? (d.coefficient * 10 ^ (places - d.scale)) 0

/-- A double with `places` decimal places, a half going away from zero. -/
def settle (places : Nat) (x : Double) : Double :=
  match x, Double.ofRatio false (10 ^ places) 1 with
  | .finite x, .finite power =>
    match Double.mul x power with
    | .finite scaled =>
      match Double.ofRatio false (roundDiv .up scaled.units (2 ^ 1074)) 1 with
      | .finite whole => Double.div whole power
      | other => other
    | other => other
  | other, _ => other

/-- The double of a decimal. Without places it is the nearest one; otherwise whole part and fraction
are rounded and added, and the sum is settled to the decimal's places. -/
def toDouble (d : Decimal) : Double :=
  if d.scale = 0 then .ofInt d.coefficient
  else
    let power := 10 ^ d.scale
    let whole := Double.ofRatio false (d.magnitude / power) 1
    let fraction := Double.div
      ((Double.ofRatio false (d.magnitude % power) 1).toFinite?.getD .zero)
      ((Double.ofRatio false power 1).toFinite?.getD .zero)
    let value := match whole, fraction with
      | .finite w, .finite f =>
        if f.isZero then whole else settle d.scale (Double.addMagnitudes w f)
      | other, _ => other
    if d.negative then value.neg else value

end Decimal

end PartitionPruning
