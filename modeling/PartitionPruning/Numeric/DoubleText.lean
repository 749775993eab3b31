import PartitionPruning.Numeric.Shortest
import PartitionPruning.Text.Digits

/-! The texts of double-precision numbers: positional notation of any length, notation with a
power of ten, and the reader of both. -/

namespace PartitionPruning

/-- `digits` as a positional number whose first digit stands `point` places before the point. -/
def positional (digits : List Char) (point : Int) : List Char :=
  if point ≤ 0 then '0' :: '.' :: (List.replicate (-point).toNat '0' ++ digits)
  else if digits.length ≤ point.toNat then
    digits ++ List.replicate (point.toNat - digits.length) '0'
  else digits.take point.toNat ++ '.' :: digits.drop point.toNat

def withSign (negative : Bool) (cs : List Char) : List Char := if negative then '-' :: cs else cs

namespace FiniteDouble

/-- The magnitude's shortest digits, and how many of them stand before the point. -/
def layout (tie : Tie) (x : FiniteDouble) : List Char × Int :=
  let d := x.shortest tie
  let digits := decimalDigits d.digits
  (digits, digits.length + d.exponent)

/-- Positional notation, without a point where nothing follows it. -/
def plainDigits (x : FiniteDouble) : List Char :=
  withSign x.negative <|
    if x.isZero then ['0'] else
      let (digits, point) := x.layout .up
      positional digits point

/-- JSON notation: always with a fraction or an exponent, the exponent from `1e16` on and below
`1e-5`. -/
def jsonDigits (x : FiniteDouble) : List Char :=
  withSign x.negative <|
    if x.isZero then ['0', '.', '0'] else
      let (digits, point) := x.layout .toEven
      let exponent := point - 1
      if -5 ≤ exponent ∧ exponent < 16 then
        let cs := positional digits point
        if cs.contains '.' then cs else cs ++ ['.', '0']
      else
        let significand := match digits with
          | d :: e :: rest => d :: '.' :: e :: rest
          | ds => ds
        significand ++ 'e' :: (if exponent < 0 then '-' else '+') :: decimalDigits exponent.natAbs

end FiniteDouble

namespace Double

def text : Double → String
  | .nan => "NaN"
  | .infinite negative => if negative then "-inf" else "inf"
  | .finite x => .ofList x.plainDigits

/-- The exponent after an `e`, if all of the text is one. -/
def readExponent? : List Char → Option Int
  | [] => some 0
  | c :: cs => if c = 'e' ∨ c = 'E' then readInt? cs else none

def readMagnitude? (negative : Bool) (cs : List Char) : Option Double :=
  let (whole, rest) := spanDigits cs
  let (fraction, rest) := match rest with
    | '.' :: rest => spanDigits rest
    | rest => ([], rest)
  if whole = [] ∧ fraction = [] then none
  else (readExponent? rest).map fun exponent =>
    ofDecimal negative (readDigits 0 (whole ++ fraction)) (exponent - fraction.length)

/-- Reads a number, or a name of infinity or of not-a-number in any case, after an optional
sign. -/
def read? (s : String) : Option Double :=
  let (negative, cs) := match s.toList with
    | '-' :: cs => (true, cs)
    | '+' :: cs => (false, cs)
    | cs => (false, cs)
  let name := String.ofList (cs.map Char.toLower)
  if name = "inf" ∨ name = "infinity" then some (.infinite negative)
  else if name = "nan" then some .nan
  else readMagnitude? negative cs

end Double

end PartitionPruning
