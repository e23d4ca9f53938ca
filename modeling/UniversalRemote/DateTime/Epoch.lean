import UniversalRemote.Calendar
import UniversalRemote.DateTime
/-!
# Times counted in seconds

The calendar time of a number of seconds after the beginning of 1970, in universal time.
-/

namespace UniversalRemote

namespace Date

/-- The day of a number, counted as in `Date.number`. Years are reckoned from March, so that a leap
day is the last of its year, and in periods of 400 years. -/
def ofNumber (n : Int) : Date :=
  let days := n + 305
  let period := days / 146097
  let day := (days % 146097).toNat
  let year := (day - day / 1460 + day / 36524 - day / 146096) / 365
  let dayOfYear := day - (365 * year + year / 4 - year / 100)
  let month := (5 * dayOfYear + 2) / 153
  { year := period * 400 + year + (if month < 10 then 0 else 1)
    month := if month < 10 then month + 3 else month - 9
    day := dayOfYear - (153 * month + 2) / 5 + 1 }

end Date

def epochDay : Int := 719163

/-- The time so many seconds after the beginning of 1970. -/
def DateTime.ofSeconds (seconds : Int) : DateTime :=
  let date := Date.ofNumber (epochDay + seconds / 86400)
  let second := (seconds % 86400).toNat
  { year := UInt16.ofNat (date.year % 0x10000).toNat
    month := UInt8.ofNat date.month
    day := UInt8.ofNat date.day
    hour := UInt8.ofNat (second / 3600)
    minute := UInt8.ofNat (second / 60 % 60)
    second := UInt8.ofNat (second % 60)
    weekday := UInt8.ofNat date.weekday
    offset := 0
    zone := "" }

end UniversalRemote
