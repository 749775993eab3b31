import PartitionPruning.Numeric.Decimal
import PartitionPruning.Text.Digits

/-! The texts of fixed-point decimals, and the reader that rounds what does not fit. -/

namespace PartitionPruning

namespace Decimal

/-- All places of the scale are written, and at least one digit before the point. -/
def render (d : Decimal) : List Char :=
  let digits := paddedDigits (d.scale + 1) d.magnitude
  let whole := digits.length - d.scale
  let text := if d.scale = 0 then digits else digits.take whole ++ '.' :: digits.drop whole
  if d.negative then '-' :: text else text

def text (d : Decimal) : String := .ofList d.render

/-- How far a coefficient has been read: whether the point has been passed, whether there has been
a digit, and the digits with their places so far. -/
structure Scan where
  fraction : Bool
  started : Bool
  coefficient : Nat
  scale : Nat

/-- The coefficient with one digit that has no room any more: a half or more rounds up, and a
coefficient that this makes too large loses its last digit. -/
def Scan.roundOff (s : Scan) (digit : Nat) : Option (Nat × Nat) :=
  if digit < 5 then some (s.coefficient, s.scale)
  else if s.coefficient + 1 < coefficientBound then some (s.coefficient + 1, s.scale)
  else if s.scale = 0 then none
  else some ((s.coefficient + 5) / 10, s.scale - 1)

def isRoundedOff (cs : List Char) : Bool := cs.all fun c => c.isDigit || c == '_'

/-- Reads digits with at most one point; an underscore may follow a digit. Once the places are used
up the next digit alone decides about rounding, and the digits after it count for nothing. -/
def Scan.read (s : Scan) : List Char → Option (Nat × Nat)
  | [] => if s.started then some (s.coefficient, s.scale) else none
  | c :: cs =>
    match digit? c with
    | some digit =>
      let next := 10 * s.coefficient + digit
      if s.fraction && decide (s.scale = maxScale ∨ coefficientBound ≤ next) then
        if isRoundedOff cs then s.roundOff digit else none
      else if coefficientBound ≤ next then none
      else
        Scan.read ⟨s.fraction, true, next, if s.fraction then s.scale + 1 else 0⟩ cs
    | none =>
      if c = '.' ∧ !s.fraction then Scan.read { s with fraction := true } cs
      else if c = '_' ∧ s.started then Scan.read s cs
      else none

def readPlain? (cs : List Char) : Option Decimal :=
  let start : Scan := ⟨false, false, 0, 0⟩
  match cs with
  | '-' :: cs => (start.read cs).bind fun p => of? (-(p.1 : Int)) p.2
  | '+' :: cs => (start.read cs).bind fun p => of? p.1 p.2
  | cs => (start.read cs).bind fun p => of? p.1 p.2

/-- The decimal times the power of ten that an exponent spells, which is at most `maxScale` on
either side. -/
def shift? (exponent : List Char) (d : Decimal) : Option Decimal :=
  let power? (cs : List Char) := (readUnsigned? cs).filter fun n => n ≤ maxScale
  match exponent with
  | '-' :: cs => (power? cs).map fun n => d.divPower n
  | cs => (power? cs).bind fun n => d.mulPower? n

def read? (s : String) : Option Decimal :=
  let cs := s.toList
  let base := cs.takeWhile fun c => c ≠ 'e' && c ≠ 'E'
  (readPlain? base).bind fun d =>
    match cs.drop base.length with
    | [] => some d
    | _ :: exponent => shift? exponent d

end Decimal

end PartitionPruning
