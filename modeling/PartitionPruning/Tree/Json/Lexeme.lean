import PartitionPruning.Tree.Number

/-! The smallest parts of JSON text: strings, numbers, words, and the space between them. Readers
take characters from the front of a text and return what is left. -/

namespace PartitionPruning

/-- Reads something at the front of a text, and returns it with what follows. -/
abbrev Reader (α : Type) := List Char → Option (α × List Char)

namespace Json

def isSpace (c : Char) : Bool := c = ' ' || c = '\n' || c = '\t' || c = '\r'

def skipSpace (cs : List Char) : List Char := cs.dropWhile isSpace

/-! ### Strings -/

def hexUnit? (a b c d : Char) : Option Nat :=
  match hexDigit? a, hexDigit? b, hexDigit? c, hexDigit? d with
  | some a, some b, some c, some d => some (4096 * a + 256 * b + 16 * c + d)
  | _, _, _, _ => none

def isLeadUnit (n : Nat) : Bool := 0xD800 ≤ n && n < 0xDC00

def isTrailUnit (n : Nat) : Bool := 0xDC00 ≤ n && n < 0xE000

def pairedChar (lead trail : Nat) : Char :=
  Char.ofNat (0x10000 + 1024 * (lead - 0xD800) + (trail - 0xDC00))

/-- The character of a short escape, from the letter after the backslash. -/
def shortEscape? : Char → Option Char
  | '"' => some '"'
  | '\\' => some '\\'
  | '/' => some '/'
  | 'b' => some '\x08'
  | 'f' => some '\x0c'
  | 'n' => some '\n'
  | 'r' => some '\r'
  | 't' => some '\t'
  | _ => none

def withChar (c : Char) (r : Option (List Char × List Char)) : Option (List Char × List Char) :=
  r.map fun p => (c :: p.1, p.2)

/-- The contents of a string, up to its closing quote. A character beyond U+FFFF may be written as
a pair of escaped units; a unit of a pair that stands alone is refused, and so is a control
character. -/
def readText : Reader (List Char)
  | [] => none
  | '"' :: rest => some ([], rest)
  | '\\' :: 'u' :: a :: b :: c :: d :: rest =>
    match hexUnit? a b c d with
    | none => none
    | some unit =>
      if isTrailUnit unit then none
      else if isLeadUnit unit then
        match rest with
        | '\\' :: 'u' :: a :: b :: c :: d :: rest =>
          match hexUnit? a b c d with
          | none => none
          | some trail =>
            if isTrailUnit trail then withChar (pairedChar unit trail) (readText rest) else none
        | _ => none
      else withChar (Char.ofNat unit) (readText rest)
  | '\\' :: c :: rest =>
    match shortEscape? c with
    | none => none
    | some c => withChar c (readText rest)
  | c :: rest => if c.toNat < 0x20 then none else withChar c (readText rest)

/-- Passes over the contents of a string whose characters do not matter. -/
def skipText : List Char → Option (List Char)
  | [] => none
  | '"' :: rest => some rest
  | '\\' :: 'u' :: a :: b :: c :: d :: rest =>
    if (hexUnit? a b c d).isSome then skipText rest else none
  | '\\' :: c :: rest => if (shortEscape? c).isSome then skipText rest else none
  | c :: rest => if c.toNat < 0x20 then none else skipText rest

/-! ### Numbers -/

structure NumberText where
  negative : Bool
  whole : List Char
  fraction : List Char
  exponent : Option Int
  deriving DecidableEq, Repr

/-- A point with at least one digit, or nothing. -/
def readFraction : Reader (List Char)
  | '.' :: cs => if (spanDigits cs).1 = [] then none else some (spanDigits cs)
  | cs => some ([], cs)

def readExponentDigits (negative : Bool) (cs : List Char) : Option (Option Int × List Char) :=
  let (digits, rest) := spanDigits cs
  let n : Int := readDigits 0 digits
  if digits = [] then none else some (some (if negative then -n else n), rest)

def readExponent : Reader (Option Int)
  | 'e' :: '-' :: cs | 'E' :: '-' :: cs => readExponentDigits true cs
  | 'e' :: '+' :: cs | 'E' :: '+' :: cs => readExponentDigits false cs
  | 'e' :: cs | 'E' :: cs => readExponentDigits false cs
  | cs => some (none, cs)

/-- The part of a number after its sign. A zero is followed by no other digit before the point. -/
def readUnsigned (negative : Bool) (cs : List Char) : Option (NumberText × List Char) :=
  let (whole, rest) := spanDigits cs
  if whole = [] ∨ (whole.head? = some '0' ∧ whole.length ≠ 1) then none
  else (readFraction rest).bind fun (fraction, rest) =>
    (readExponent rest).map fun (exponent, rest) => (⟨negative, whole, fraction, exponent⟩, rest)

def readNumberText : Reader NumberText
  | '-' :: cs => readUnsigned true cs
  | cs => readUnsigned false cs

/-- Continues a number below `2 ^ 64` with digits as long as it stays there, and returns the digits
that are left. -/
def takeDigits : Nat → List Char → Nat × List Char
  | n, [] => (n, [])
  | n, c :: cs =>
    if 10 * n + (c.toNat - 48) < 2 ^ 64 then takeDigits (10 * n + (c.toNat - 48)) cs
    else (n, c :: cs)

/-- The largest power of ten that is a double. -/
def largestPower : Nat := 308

def powerOfTen (exponent : Nat) : FiniteDouble :=
  (Double.ofRatio false (10 ^ exponent) 1).toFinite?.getD .zero

/-- A double times a power of ten, rounded once; nothing if it is too large. -/
def scaleUp? (x : FiniteDouble) (exponent : Nat) : Option FiniteDouble :=
  if x.isZero then some x
  else if largestPower < exponent then none
  else (Double.mul x (powerOfTen exponent)).toFinite?

/-- A double below `2 ^ 64` over a power of ten. A power that is no double is split in two. -/
def scaleDown? (x : FiniteDouble) (exponent : Nat) : Option FiniteDouble :=
  if exponent ≤ largestPower then (Double.div x (powerOfTen exponent)).toFinite?
  else if exponent ≤ 2 * largestPower then
    (Double.div x (powerOfTen largestPower)).toFinite?.bind fun y =>
      (Double.div y (powerOfTen (exponent - largestPower))).toFinite?
  else some .zero

namespace NumberText

/-- The double of a number: as many digits as stay below `2 ^ 64`, rounded, times the power of ten
that is left. -/
def double? (t : NumberText) : Option FiniteDouble :=
  let (whole, left) := takeDigits 0 t.whole
  let (significand, dropped) := takeDigits whole t.fraction
  let places : Int := t.fraction.length - dropped.length
  let exponent : Int := left.length - places + t.exponent.getD 0
  (Double.ofRatio false significand 1).toFinite?.bind fun x =>
    (if 0 ≤ exponent then scaleUp? x exponent.toNat else scaleDown? x (-exponent).toNat).map
      fun y => if t.negative then y.neg else y

/-- The number: an integer if it is written as one and fits, or else a double. A negative zero is
a double. -/
def number? (t : NumberText) : Option Number :=
  let n := readDigits 0 t.whole
  let integer? :=
    if t.fraction = [] ∧ t.exponent = none ∧ ¬(t.negative ∧ n = 0) then
      Number.ofInt? (if t.negative then -n else n)
    else none
  match integer? with
  | some k => some k
  | none => t.double?.map .float

end NumberText

def readNumber : Reader Number := fun cs =>
  (readNumberText cs).bind fun (t, rest) => t.number?.map fun n => (n, rest)

end Json

end PartitionPruning
