import PartitionPruning.Calendar.Date
import PartitionPruning.Text.Digits

/-! Times of day and timestamps without a zone, down to the nanosecond. -/

namespace PartitionPruning

/-- A time of day. Any minute may have a leap second, its second 60. -/
structure Time where
  hour : Nat
  minute : Nat
  second : Nat
  nano : Nat
  hour_lt : hour < 24
  minute_lt : minute < 60
  second_le : second ≤ 60
  nano_lt : nano < 10 ^ 9
  deriving DecidableEq, Repr

namespace Time

def of? (hour minute second nano : Nat) : Option Time :=
  if h : hour < 24 ∧ minute < 60 ∧ second ≤ 60 ∧ nano < 10 ^ 9 then
    some ⟨hour, minute, second, nano, h.1, h.2.1, h.2.2.1, h.2.2.2⟩
  else none

theorem of?_self (t : Time) : of? t.hour t.minute t.second t.nano = some t := by
  have := t.hour_lt
  have := t.minute_lt
  have := t.second_le
  have := t.nano_lt
  simp only [of?]
  rw [dif_pos (by omega)]

def midnight : Time := ⟨0, 0, 0, 0, by decide, by decide, by decide, by decide⟩

def compare (a b : Time) : Ordering :=
  (Ord.compare a.hour b.hour).then ((Ord.compare a.minute b.minute).then
    ((Ord.compare a.second b.second).then (Ord.compare a.nano b.nano)))

end Time

structure Timestamp where
  date : Date
  time : Time
  deriving DecidableEq, Repr

namespace Timestamp

def compare (a b : Timestamp) : Ordering := (a.date.compare b.date).then (a.time.compare b.time)

def atMidnight (d : Date) : Timestamp := ⟨d, .midnight⟩

def ofEpoch? (seconds : Int) (nano : Nat) : Option Timestamp :=
  let second := (seconds % 86400).toNat
  match Date.ofEpochDay? (seconds / 86400),
      Time.of? (second / 3600) (second / 60 % 60) (second % 60) nano with
  | some date, some time => some ⟨date, time⟩
  | _, _ => none

def ofEpochMillis? (millis : Int) : Option Timestamp :=
  ofEpoch? (millis / 1000) ((millis % 1000).toNat * 1000000)

def ofEpochMicros? (micros : Int) : Option Timestamp :=
  ofEpoch? (micros / 1000000) ((micros % 1000000).toNat * 1000)

/-- The timestamp `minutes` minutes later, the second and its fraction unchanged. -/
def addMinutes? (t : Timestamp) (minutes : Int) : Option Timestamp :=
  let total := 60 * t.time.hour + t.time.minute + minutes
  let minute := (total % 1440).toNat
  match Date.ofEpochDay? (t.date.toEpochDay + total / 1440),
      Time.of? (minute / 60) (minute % 60) t.time.second t.time.nano with
  | some date, some time => some ⟨date, time⟩
  | _, _ => none

end Timestamp

end PartitionPruning
