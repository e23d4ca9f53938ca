import UniversalRemote.Calendar
import UniversalRemote.Text.Numeral
import UniversalRemote.Text.Scan
/-!
# Dates and times of TOML documents

Dates, times of the day, and both together, with or without an offset from universal time.
-/

namespace UniversalRemote.Toml

open Scan

structure Clock where
  hour : Nat
  minute : Nat
  second : Nat
  nanosecond : Nat := 0
  deriving DecidableEq, Repr

/-- A date, a time of the day, or both. -/
inductive Moment where
  | date (date : Date)
  | clock (clock : Clock)
  /-- Both, and the minutes east of universal time if they are given. -/
  | full (date : Date) (clock : Clock) (offset : Option Int)
  deriving DecidableEq, Repr

namespace Moment

/-- A number of so many digits between two bounds. -/
def field (width low high : Nat) : Scan Nat := do
  let n := Numeral.ofDigits 10 (← exactly Decimal.isDigit width)
  if low ≤ n && n ≤ high then return n else failure

def calendarDate : Scan Date := do
  let year ← field 4 0 9999
  char '-'
  let month ← field 2 1 12
  char '-'
  let day ← field 2 1 31
  let date : Date := ⟨year, month, day⟩
  if date.isValid then return date else failure

/-- A fraction of a second, in nanoseconds. What is smaller is left out. -/
def fraction : Scan Nat := do
  char '.'
  let digits ← takeWhile1 Decimal.isDigit
  return Numeral.ofDigits 10 ((digits ++ List.replicate 9 '0').take 9)

/-- A time of the day, up to a leap second. -/
def timeOfDay : Scan Clock := do
  let hour ← field 2 0 23
  char ':'
  let minute ← field 2 0 59
  char ':'
  let second ← field 2 0 60
  return ⟨hour, minute, second, (← optional fraction).getD 0⟩

def offset : Scan Int :=
  discard (satisfy fun c => c == 'Z' || c == 'z') *> pure 0 <|> do
    let negative ← char '-' *> pure true <|> char '+' *> pure false
    let hour ← field 2 0 23
    char ':'
    let minute ← field 2 0 59
    let minutes : Int := hour * 60 + minute
    return if negative then -minutes else minutes

def rest : Scan (Clock × Option Int) := do
  discard (satisfy fun c => c == 'T' || c == 't' || c == ' ')
  let time ← timeOfDay
  return (time, ← optional offset)

def scan : Scan Moment :=
  (do
    let day ← calendarDate
    match ← optional rest with
    | some (time, offset) => return full day time offset
    | none => return date day) <|>
  clock <$> timeOfDay

end Moment

end UniversalRemote.Toml
