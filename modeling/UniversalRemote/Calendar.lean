/-!
# The calendar

Days of the Gregorian calendar, reckoned to all years, and the day of the week that each falls on.
-/

namespace UniversalRemote

structure Date where
  year : Int
  month : Nat
  day : Nat
  deriving DecidableEq, Repr

namespace Date

def isLeap (year : Int) : Bool :=
  year % 4 == 0 && (year % 100 != 0 || year % 400 == 0)

def daysIn (year : Int) (month : Nat) : Nat :=
  if month = 2 then if isLeap year then 29 else 28
  else if month = 4 ∨ month = 6 ∨ month = 9 ∨ month = 11 then 30
  else 31

def isValid (date : Date) : Bool :=
  1 ≤ date.month && date.month ≤ 12 && 1 ≤ date.day
    && date.day ≤ daysIn date.year date.month

/-- The number of days in the first months of a year. -/
def daysInFirst (year : Int) : Nat → Nat
  | 0 => 0
  | month + 1 => daysInFirst year month + daysIn year (month + 1)

/-- The number of a day, counted from the last day before the year one. -/
def number (date : Date) : Int :=
  let years := date.year - 1
  365 * years + years / 4 - years / 100 + years / 400
    + daysInFirst date.year (date.month - 1) + date.day

/-- The day of the week, counted from Sunday. -/
def weekday (date : Date) : Nat :=
  (date.number % 7).toNat

end Date

end UniversalRemote
