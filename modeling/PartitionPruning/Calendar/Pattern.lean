import PartitionPruning.Calendar.Timestamp
import PartitionPruning.Text.Blank
import PartitionPruning.Text.Digits

/-! The written forms of dates and timestamps. A pattern is a list of fields; reading one collects
the numbers it names. Numbers may have white space in front and need no padding. -/

namespace PartitionPruning

inductive PatternField where
  | year
  | month
  | day
  | hour
  | minute
  | second
  /-- An optional point with digits of a second. -/
  | fraction
  /-- Any run of white space, also none. -/
  | blanks
  | char (c : Char)
  deriving DecidableEq, Repr

/-- The numbers a pattern has read so far. -/
structure DateParts where
  year : Int := 0
  month : Nat := 0
  day : Nat := 0
  hour : Nat := 0
  minute : Nat := 0
  second : Nat := 0
  nano : Nat := 0
  deriving DecidableEq, Repr

namespace DateParts

def date? (p : DateParts) : Option Date := Date.of? p.year p.month p.day

def timestamp? (p : DateParts) : Option Timestamp :=
  match p.date?, Time.of? p.hour p.minute p.second p.nano with
  | some date, some time => some ⟨date, time⟩
  | _, _ => none

end DateParts

/-- A number of at least one and at most `width` digits, and what follows it. -/
def readUpTo? (width : Nat) (cs : List Char) : Option (Nat × List Char) :=
  let digits := (cs.take width).takeWhile Char.isDigit
  if digits = [] then none else some (readDigits 0 digits, cs.drop digits.length)

def readExactly? (width : Nat) (cs : List Char) : Option (Nat × List Char) :=
  let digits := (cs.take width).takeWhile Char.isDigit
  if digits.length = width then some (readDigits 0 digits, cs.drop width) else none

/-- A year: up to four digits, or any number of digits after a sign. -/
def readYear? : List Char → Option (Int × List Char)
  | '-' :: cs => (readUpTo? cs.length cs).map fun (n, rest) => (-(n : Int), rest)
  | '+' :: cs => (readUpTo? cs.length cs).map fun (n, rest) => ((n : Int), rest)
  | cs => (readUpTo? 4 cs).map fun (n, rest) => ((n : Int), rest)

/-- The nanoseconds that the digits after a point make; digits past the ninth are dropped. -/
def readNanos? (cs : List Char) : Option (Nat × List Char) :=
  let (digits, rest) := spanDigits cs
  let kept := digits.take 9
  if digits = [] then none else some (readDigits 0 kept * 10 ^ (9 - kept.length), rest)

def readFraction? : List Char → Option (Nat × List Char)
  | '.' :: cs => readNanos? cs
  | cs => some (0, cs)

namespace PatternField

def read? (p : DateParts) (cs : List Char) : PatternField → Option (DateParts × List Char)
  | year => (readYear? (skipBlanks cs)).map fun (n, rest) => ({ p with year := n }, rest)
  | month => (readUpTo? 2 (skipBlanks cs)).map fun (n, rest) => ({ p with month := n }, rest)
  | day => (readUpTo? 2 (skipBlanks cs)).map fun (n, rest) => ({ p with day := n }, rest)
  | hour => (readUpTo? 2 (skipBlanks cs)).map fun (n, rest) => ({ p with hour := n }, rest)
  | minute => (readUpTo? 2 (skipBlanks cs)).map fun (n, rest) => ({ p with minute := n }, rest)
  | second => (readUpTo? 2 (skipBlanks cs)).map fun (n, rest) => ({ p with second := n }, rest)
  | fraction => (readFraction? cs).map fun (n, rest) => ({ p with nano := n }, rest)
  | blanks => some (p, skipBlanks cs)
  | char c => match cs with
    | d :: rest => if c = d then some (p, rest) else none
    | [] => none

def readAll? (p : DateParts) : List PatternField → List Char → Option DateParts
  | [], [] => some p
  | [], _ :: _ => none
  | f :: fs, cs => (f.read? p cs).bind fun (p, rest) => readAll? p fs rest

end PatternField

abbrev Pattern := List PatternField

namespace Pattern

open PatternField

def isoDate : Pattern := [year, char '-', month, char '-', day]

def slashDate : Pattern := [month, char '/', day, char '/', year]

def clock : Pattern := [hour, char ':', minute, char ':', second]

def datePatterns : List Pattern := [isoDate, slashDate]

def timestampPatterns : List Pattern :=
  [isoDate ++ blanks :: clock ++ [fraction],
   isoDate ++ char 'T' :: clock ++ [fraction],
   slashDate ++ blanks :: clock]

def date? (pattern : Pattern) (cs : List Char) : Option Date :=
  (PatternField.readAll? {} pattern cs).bind DateParts.date?

def timestamp? (pattern : Pattern) (cs : List Char) : Option Timestamp :=
  (PatternField.readAll? {} pattern cs).bind DateParts.timestamp?

end Pattern

def readDate? (cs : List Char) : Option Date :=
  Pattern.datePatterns.findSome? fun pattern => pattern.date? cs

def expectChar? (c : Char) : List Char → Option (List Char)
  | d :: rest => if c = d then some rest else none
  | [] => none

/-- The offset from UTC in minutes: `Z`, or a sign with hours and minutes. The minus may be the
mathematical sign. -/
def readOffset? : List Char → Option (Int × List Char)
  | 'Z' :: rest | 'z' :: rest => some (0, rest)
  | sign :: rest =>
    if sign = '+' ∨ sign = '-' ∨ sign = '\u2212' then do
      let (hours, rest) ← readExactly? 2 rest
      let rest ← expectChar? ':' rest
      let (minutes, rest) ← readExactly? 2 rest
      if hours < 24 ∧ minutes < 60 then
        let offset : Int := 60 * hours + minutes
        some (if sign = '+' then offset else -offset, rest)
      else none
    else none
  | [] => none

/-- A timestamp with its offset from UTC, every number of fixed width, brought to UTC. -/
def readZoned? (cs : List Char) : Option Timestamp := do
  let (year, cs) ← readExactly? 4 cs
  let cs ← expectChar? '-' cs
  let (month, cs) ← readExactly? 2 cs
  let cs ← expectChar? '-' cs
  let (day, cs) ← readExactly? 2 cs
  let cs ← match cs with
    | 'T' :: cs | 't' :: cs | ' ' :: cs => some cs
    | _ => none
  let (hour, cs) ← readExactly? 2 cs
  let cs ← expectChar? ':' cs
  let (minute, cs) ← readExactly? 2 cs
  let cs ← expectChar? ':' cs
  let (second, cs) ← readExactly? 2 cs
  let (nano, cs) ← readFraction? cs
  let (offset, cs) ← readOffset? cs
  let local? := DateParts.timestamp? ⟨year, month, day, hour, minute, second, nano⟩
  if cs = [] then local?.bind fun t => t.addMinutes? (-offset) else none

/-- A timestamp: with an offset, in one of the timestamp patterns, or a date at midnight. -/
def readTimestamp? (cs : List Char) : Option Timestamp :=
  readZoned? cs <|>
    (Pattern.timestampPatterns.findSome? fun pattern => pattern.timestamp? cs) <|>
    (readDate? cs).map Timestamp.atMidnight

/-- Four digits, or a sign and at least four outside of the years 0 to 9999. -/
def renderYear (year : Int) : List Char :=
  if 0 ≤ year ∧ year ≤ 9999 then paddedDigits 4 year.natAbs
  else (if year < 0 then '-' else '+') :: paddedDigits 4 year.natAbs

def Date.render (d : Date) : List Char :=
  renderYear d.year ++ '-' :: paddedDigits 2 d.month ++ '-' :: paddedDigits 2 d.day

/-- The fraction of a second in three, six or nine digits, whichever is enough. -/
def renderFraction (nano : Nat) : List Char :=
  if nano = 0 then []
  else if nano % 1000000 = 0 then '.' :: paddedDigits 3 (nano / 1000000)
  else if nano % 1000 = 0 then '.' :: paddedDigits 6 (nano / 1000)
  else '.' :: paddedDigits 9 nano

def Time.render (t : Time) : List Char :=
  paddedDigits 2 t.hour ++ ':' :: paddedDigits 2 t.minute ++ ':' :: paddedDigits 2 t.second ++
    renderFraction t.nano

def Timestamp.render (t : Timestamp) : List Char := t.date.render ++ ' ' :: t.time.render

end PartitionPruning
