import UniversalRemote.Text.Numeral
/-!
# Infrared signals

A learned signal and its text: the carrier frequency, then marks and spaces in turn.
-/

namespace UniversalRemote

structure Signal where
  /-- The carrier frequency in hertz, zero where unknown. -/
  frequency : UInt32
  /-- Durations in microseconds, marks and spaces in turn. -/
  pulses : List UInt32
  deriving DecidableEq, Repr

namespace Signal

/-- A tagged number of at least four digits. -/
def field (tag : Char) (n : UInt32) : List Char :=
  tag :: Hex.padded 4 n.toNat

/-- The fields of durations, tagged as marks and spaces in turn. -/
def pulseFields : List UInt32 → List Char
  | [] => []
  | [mark] => field 'P' mark
  | mark :: space :: rest => field 'P' mark ++ field 'S' space ++ pulseFields rest

def learnChars (s : Signal) : List Char :=
  field 'F' s.frequency ++ pulseFields s.pulses

def learnText (s : Signal) : String :=
  String.ofList s.learnChars

end Signal

end UniversalRemote
