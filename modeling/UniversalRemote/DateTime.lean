/-!
# Date and time

The wall-clock time that a remote keeps.
-/

namespace UniversalRemote

def paddedDecimal (width n : Nat) : String :=
  let digits := toString n
  String.ofList (List.replicate (width - digits.length) '0') ++ digits

structure DateTime where
  year : UInt16
  month : UInt8
  day : UInt8
  hour : UInt8
  minute : UInt8
  second : UInt8
  /-- The day of the week, counted from Sunday; seven where it is not kept. -/
  weekday : UInt8
  /-- Minutes east of universal time. -/
  offset : Int16
  zone : String
  deriving DecidableEq, Repr

namespace DateTime

/-- The text of a time; an offset and a zone are left out where they say nothing. -/
def text (t : DateTime) : String :=
  let two := fun (b : UInt8) => paddedDecimal 2 b.toNat
  let date := s!"{paddedDecimal 4 t.year.toNat}-{two t.month}-{two t.day}"
  let clock := s!"{two t.hour}:{two t.minute}:{two t.second}"
  let sign := if t.offset.toInt < 0 then "-" else "+"
  let offset := if t.offset = 0 then "" else s!" {sign}{t.offset.toInt.natAbs}"
  let zone := if t.zone.isEmpty then "" else s!" {t.zone}"
  s!"{date} {clock}{offset}{zone}"

end DateTime

end UniversalRemote
