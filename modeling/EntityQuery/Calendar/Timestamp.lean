import EntityQuery.Calendar.Date

/-!
# Timestamps

Points of time as seconds since the start of 1 January 1970 in universal time, with nanoseconds.
A leap second is written as its predecessor with a billion nanoseconds and more, so it orders
after every fraction of its predecessor and before the next second.

`Timestamp.midnight` formalizes `midnight`, and `Timestamp.ofSeconds?` formalizes `from_timestamp`.
-/

namespace EntityQuery

/-- A point of time. -/
structure Timestamp where
  seconds : Int
  nanos : Nat
deriving DecidableEq, Repr

namespace Timestamp

/-- The number of seconds of a day. -/
def secondsPerDay : Int := 86400

/-- The start of a day. -/
def midnight (d : Date) : Timestamp := ⟨d.day * secondsPerDay, 0⟩

/-- The day that holds a point of time. -/
def date (t : Timestamp) : Date := ⟨t.seconds / secondsPerDay⟩

/-- The order of time: by seconds, then by nanoseconds. -/
def order (a b : Timestamp) : Ordering :=
  (compare a.seconds b.seconds).then (compare a.nanos b.nanos)

/-- The point of time a whole number of seconds after the start of 1970, if the calendar has its
day. -/
def ofSeconds? (seconds : Int) : Option Timestamp :=
  let day := seconds / secondsPerDay
  if Date.firstDay ≤ day ∧ day ≤ Date.lastDay then some ⟨seconds, 0⟩ else none

/-- The point of time of a day and a time of day. Second 60 is the leap second after second 59.
-/
def ofClock? (d : Date) (hour minute second nanos : Nat) : Option Timestamp :=
  if hour < 24 ∧ minute < 60 ∧ second ≤ 60 then
    let leap := if second = 60 then 1 else 0
    some ⟨d.day * secondsPerDay + (hour * 3600 + minute * 60 + (second - leap) : Nat),
      nanos + leap * 1000000000⟩
  else none

/-- The same point of time read off a clock that is `offset` seconds ahead. -/
def behind (t : Timestamp) (offset : Int) : Timestamp := ⟨t.seconds - offset, t.nanos⟩

end Timestamp

end EntityQuery
