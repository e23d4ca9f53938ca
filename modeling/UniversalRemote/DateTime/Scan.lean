import UniversalRemote.Calendar
import UniversalRemote.DateTime
import UniversalRemote.Text.Numeral
import UniversalRemote.Text.Line
import UniversalRemote.Text.Scan
/-!
# Times read from text

A time is written as year, month, day, hour, minute and second, with hyphens in the date and colons
in the time of the day. White space may stand in front of each number.
-/

namespace UniversalRemote.DateTime

open Scan

def space : Scan Unit :=
  discard (takeWhile Text.isBlank)

/-- As many digits as there are, but at least one and at most so many. -/
def digits (most : Nat) : Scan Nat := do
  let first ← satisfy Decimal.isDigit
  let rec more : Nat → Scan (List Char)
    | 0 => pure []
    | n + 1 => do
      match ← optional (satisfy Decimal.isDigit) with
      | some c => return c :: (← more n)
      | none => return []
  return Numeral.ofDigits 10 (first :: (← more (most - 1)))

/-- A number of one or two digits between two bounds. -/
def field (low high : Nat) : Scan Nat := do
  space
  let n ← digits 2
  if low ≤ n && n ≤ high then return n else failure

def longNumber : Scan Nat := do
  return Numeral.ofDigits 10 (← takeWhile1 Decimal.isDigit)

/-- A year: up to four digits, or any number of them behind a sign. -/
def scanYear : Scan Int := do
  space
  let year ← (do char '-'; return -(← longNumber : Int))
    <|> (do char '+'; return (← longNumber : Int))
    <|> (do return (← digits 4 : Int))
  if -262143 ≤ year && year ≤ 262142 then return year else failure

def scanDate : Scan Date := do
  let year ← scanYear
  char '-'
  let month ← field 1 12
  char '-'
  let date : Date := ⟨year, month, ← field 1 31⟩
  if date.isValid then return date else failure

/-- A time. A leap second is taken for the second before it, and the year is kept in its word. -/
def scan : Scan DateTime := do
  let date ← scanDate
  let hour ← field 0 23
  char ':'
  let minute ← field 0 59
  char ':'
  let second ← field 0 60
  return {
    year := UInt16.ofNat (date.year % 0x10000).toNat
    month := UInt8.ofNat date.month
    day := UInt8.ofNat date.day
    hour := UInt8.ofNat hour
    minute := UInt8.ofNat minute
    second := UInt8.ofNat (min second 59)
    weekday := UInt8.ofNat date.weekday
    offset := 0
    zone := "" }

def ofText? (text : String) : Option DateTime :=
  scan.whole? text.toList

end UniversalRemote.DateTime
