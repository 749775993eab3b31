/-! Digits: the number that digits spell, the digits of a number, and signed integers in
64 bits. -/

-- Powers are those of the core library, also where a larger library brings instances of its own, so
-- that a bound such as `2 ^ 64` is the same term in definitions and in proofs.
attribute [instance (high), default_instance (high + 1)] instPowNat

namespace PartitionPruning

def digit? (c : Char) : Option Nat := if c.isDigit then some (c.toNat - 48) else none

def hexDigit? (c : Char) : Option Nat :=
  if '0' ≤ c ∧ c ≤ '9' then some (c.toNat - 48)
  else if 'a' ≤ c ∧ c ≤ 'f' then some (c.toNat - 87)
  else if 'A' ≤ c ∧ c ≤ 'F' then some (c.toNat - 55)
  else none

/-- The number that ASCII digits spell, continued from `start`. -/
def readDigits (start : Nat) (digits : List Char) : Nat :=
  digits.foldl (fun n c => 10 * n + (c.toNat - 48)) start

def spanDigits (cs : List Char) : List Char × List Char :=
  (cs.takeWhile Char.isDigit, cs.dropWhile Char.isDigit)

def decimalDigits (n : Nat) : List Char := Nat.toDigits 10 n

/-- The digits of `n`, with zeros in front up to `width` characters. -/
def paddedDigits (width n : Nat) : List Char :=
  let digits := decimalDigits n
  List.replicate (width - digits.length) '0' ++ digits

def signedDigits (n : Int) : List Char :=
  if n < 0 then '-' :: decimalDigits n.natAbs else decimalDigits n.natAbs

def natText (n : Nat) : String := .ofList (decimalDigits n)

def intText (n : Int) : String := .ofList (signedDigits n)

/-- All of a text as a number: at least one digit and nothing else. -/
def readNat? (cs : List Char) : Option Nat :=
  if cs ≠ [] ∧ cs.all Char.isDigit then some (readDigits 0 cs) else none

def readUnsigned? : List Char → Option Nat
  | '+' :: cs => readNat? cs
  | cs => readNat? cs

def readInt? : List Char → Option Int
  | '-' :: cs => (readNat? cs).map fun n => -(n : Int)
  | '+' :: cs => (readNat? cs).map fun n => (n : Int)
  | cs => (readNat? cs).map fun n => (n : Int)

def toInt64? (n : Int) : Option Int64 :=
  if -2 ^ 63 ≤ n ∧ n < 2 ^ 63 then some (.ofInt n) else none

def toUInt64? (n : Int) : Option UInt64 :=
  if 0 ≤ n ∧ n < 2 ^ 64 then some (.ofNat n.toNat) else none

def readInt64? (s : String) : Option Int64 := (readInt? s.toList).bind toInt64?

end PartitionPruning
