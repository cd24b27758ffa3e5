/-!
# Dates

Days of the proleptic Gregorian calendar, counted from 1 January 1970. The count is the date:
its order is the order of time, and year, month and day are computed from it.
-/

namespace EntityQuery

/-- A day, by its number of days since 1 January 1970. -/
structure Date where
  day : Int
deriving DecidableEq, Repr

namespace Date

/-- A leap year: divisible by four, and by 400 if by 100. -/
def isLeap (year : Int) : Bool :=
  year % 4 == 0 && (year % 100 != 0 || year % 400 == 0)

/-- The lengths of the twelve months. -/
def monthLengths (year : Int) : List Nat :=
  [31, if isLeap year then 29 else 28, 31, 30, 31, 30, 31, 31, 30, 31, 30, 31]

/-- The first and the last year of the calendar. -/
def firstYear : Int := -262143

/-- The last year of the calendar. -/
def lastYear : Int := 262142

/-- The number of days from the start of year 1 to the start of a year. -/
def daysBeforeYear (year : Int) : Int :=
  let y := year - 1
  365 * y + y / 4 - y / 100 + y / 400

/-- The number of days from the start of year 1 to 1 January 1970. -/
def epoch : Int := daysBeforeYear 1970

/-- The number of days of some months. -/
def daysOf : List Nat → Nat
  | [] => 0
  | length :: lengths => length + daysOf lengths

/-- The date of a year, a month and a day of the month, if there is one. -/
def ofCivil? (year : Int) (month day : Nat) : Option Date :=
  let lengths := monthLengths year
  if firstYear ≤ year ∧ year ≤ lastYear ∧ 1 ≤ month ∧ 1 ≤ day ∧ day ≤ lengths.getD (month - 1) 0 then
    some ⟨daysBeforeYear year + daysOf (lengths.take (month - 1)) + day - 1 - epoch⟩
  else none

/-- The year that holds the day with this number, counted from the start of year 1. Dividing by
the mean length of a year misses it by one at most. -/
def yearOf (n : Int) : Int :=
  let guess := n * 400 / 146097 + 1
  if n < daysBeforeYear guess then guess - 1
  else if daysBeforeYear (guess + 1) ≤ n then guess + 1
  else guess

/-- Month and day of the month of the day with this number in its year, the months being
counted from `month` and their lengths given. -/
def monthAndDay (month : Nat) : List Nat → Nat → Nat × Nat
  | [], n => (month, n + 1)
  | length :: lengths, n =>
    if n < length then (month, n + 1) else monthAndDay (month + 1) lengths (n - length)

/-- Year, month and day of the month of a date. -/
def civil (d : Date) : Int × Nat × Nat :=
  let n := d.day + epoch
  let year := yearOf n
  (year, monthAndDay 1 (monthLengths year) (n - daysBeforeYear year).toNat)

/-- The first and the last day of the calendar. -/
def firstDay : Int := daysBeforeYear firstYear - epoch

/-- The last day of the calendar. -/
def lastDay : Int := daysBeforeYear (lastYear + 1) - 1 - epoch

end Date

end EntityQuery
