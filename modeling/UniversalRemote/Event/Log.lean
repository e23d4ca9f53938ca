import UniversalRemote.Event
import UniversalRemote.Text.Numeral
/-!
# Events as log lines

The structured line that each event leaves in a log.
-/

namespace UniversalRemote

structure LogLine where
  level : LogLevel
  message : String
  fields : List (String × String) := []
  deriving DecidableEq, Repr

namespace Event

/-- The share of a total in percent; nothing where a hundredfold leaves a 64-bit word. -/
def percent? (current total : Nat) : Option Nat :=
  if total = 0 then some 0
  else if current * 100 < 0x10000000000000000 then some (current * 100 / total)
  else none

def dump (data : List UInt8) : String :=
  " ".intercalate (data.map fun b => String.ofList (Hex.pair b))

def logLine? : Event → Option LogLine
  | connected device => some ⟨.info, "Device connected", [("device", device)]⟩
  | stage phase => some ⟨.info, "Stage started", [("stage", phase.name)]⟩
  | progress phase current total => do
    let percent ← percent? current total
    return ⟨.debug, "Progress", [("stage", phase.name), ("progress", s!"{percent}%")]⟩
  | log level message => some ⟨level, message, []⟩
  | packet direction length data =>
    some ⟨.trace, "Report",
      [("dir", direction.name), ("len", toString length), ("data", dump (data.getD []))]⟩
  | complete => some ⟨.info, "Operation complete", []⟩

end Event

end UniversalRemote
