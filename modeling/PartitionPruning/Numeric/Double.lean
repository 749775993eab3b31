import PartitionPruning.Numeric.Rounding
import PartitionPruning.Text.Digits

/-! Double-precision numbers as exact data. The finite ones of each sign are numbered in order of
size, so they compare by number, and every one is a whole multiple of the smallest positive one,
so arithmetic on them is natural-number arithmetic followed by one rounding. -/

namespace PartitionPruning

/-- How many finite doubles of one sign there are, zero included. -/
def finiteCodes : Nat := 2047 * 2 ^ 52

/-- A finite double: its sign, and its place among the finite doubles of that sign in order of
size. -/
structure FiniteDouble where
  negative : Bool
  code : Fin finiteCodes
  deriving DecidableEq, Repr

/-- A double-precision number. There is one not-a-number: its payload is never told apart. -/
inductive Double where
  | nan
  | infinite (negative : Bool)
  | finite (x : FiniteDouble)
  deriving DecidableEq, Repr

/-- How many of the smallest positive double, `2 ^ -1074`, a magnitude of this code holds. -/
def unitsOfCode (code : Nat) : Nat :=
  if code < 2 ^ 52 then code else (code % 2 ^ 52 + 2 ^ 52) * 2 ^ (code / 2 ^ 52 - 1)

/-- The code nearest to `num / den` units, ties to the even significand. The result may lie beyond
the finite codes. -/
def nearestCode (num den : Nat) : Nat :=
  let shift := (num / den).log2 - 52
  shift * 2 ^ 52 + roundDiv .toEven num (den * 2 ^ shift)

namespace FiniteDouble

def zero : FiniteDouble := ⟨false, ⟨0, by decide⟩⟩

def isZero (x : FiniteDouble) : Bool := x.code.val == 0

def units (x : FiniteDouble) : Nat := unitsOfCode x.code

def neg (x : FiniteDouble) : FiniteDouble := { x with negative := !x.negative }

/-- The place of a double among all finite ones in order of size; both zeros are at 0. -/
def place (x : FiniteDouble) : Int := if x.negative then -(x.code : Int) else x.code

/-- Equal as numbers: the two zeros are. -/
def sameNumber (x y : FiniteDouble) : Bool := x.place == y.place

end FiniteDouble

namespace Double

/-- The double nearest to `num / den` units. -/
def ofUnits (negative : Bool) (num den : Nat) : Double :=
  if h : nearestCode num den < finiteCodes then .finite ⟨negative, ⟨nearestCode num den, h⟩⟩
  else .infinite negative

def ofRatio (negative : Bool) (num den : Nat) : Double :=
  ofUnits negative (num * 2 ^ 1074) den

def ofInt (n : Int) : Double := ofRatio (n < 0) n.natAbs 1

/-- The double nearest to `digits * 10 ^ exponent`. The two guards settle what is certain to be
beyond the largest double or below the smallest without building the power. -/
def ofDecimal (negative : Bool) (digits : Nat) (exponent : Int) : Double :=
  let length : Int := (Nat.toDigits 10 digits).length
  if digits = 0 ∨ length + exponent < -330 then .finite ⟨negative, ⟨0, by decide⟩⟩
  else if 310 < length + exponent then .infinite negative
  else if 0 ≤ exponent then ofRatio negative (digits * 10 ^ exponent.toNat) 1
  else ofRatio negative digits (10 ^ (-exponent).toNat)

def neg : Double → Double
  | .nan => .nan
  | .infinite negative => .infinite !negative
  | .finite x => .finite x.neg

def mul (x y : FiniteDouble) : Double :=
  ofUnits (x.negative != y.negative) (x.units * y.units) (2 ^ 1074)

/-- The quotient by a divisor that is not zero. -/
def div (x y : FiniteDouble) : Double :=
  ofUnits (x.negative != y.negative) (x.units * 2 ^ 1074) y.units

/-- The sum of two doubles that are not negative. -/
def addMagnitudes (x y : FiniteDouble) : Double :=
  ofUnits false (x.units + y.units) 1

def compare : Double → Double → Option Ordering
  | .nan, _ | _, .nan => none
  | .finite x, .finite y => some (Ord.compare x.place y.place)
  | .infinite a, .infinite b => some (Ord.compare (!a).toNat (!b).toNat)
  | .infinite a, .finite _ => some (if a then .lt else .gt)
  | .finite _, .infinite b => some (if b then .gt else .lt)

/-- Equal as numbers: the zeros are equal and not-a-number is equal to nothing. -/
def sameNumber (x y : Double) : Bool := x.compare y == some .eq

def toFinite? : Double → Option FiniteDouble
  | .finite x => some x
  | _ => none

end Double

end PartitionPruning
