import UniversalRemote.Link.Device
/-!
# Mock devices

A device that hands out reports from a queue and keeps what is written to it. Its reports have a
fixed size: shorter ones are filled with zeros, longer writes are refused.
-/

namespace UniversalRemote

structure Mock where
  size : Nat := 64
  connected : Bool := true
  /-- The reads still to come: a report each, or nothing in time. -/
  queue : List (Option Report) := []
  /-- What has been written, newest first. -/
  log : List Report := []
  deriving DecidableEq, Repr

namespace Mock

def fill (size : Nat) (report : Report) : Report :=
  report ++ List.replicate (size - report.length) 0

def enqueue (m : Mock) (report : Report) : Mock :=
  { m with queue := m.queue ++ [some (fill m.size report)] }

/-- Queues a read at which nothing arrives in time. -/
def enqueueTimeout (m : Mock) : Mock :=
  { m with queue := m.queue ++ [none] }

/-- What has been written, oldest first. -/
def written (m : Mock) : List Report :=
  m.log.reverse

def clear (m : Mock) : Mock :=
  { m with log := [] }

/-- Takes the device off the link, for good. -/
def unplug (m : Mock) : Mock :=
  { m with connected := false }

def write (report : Report) (m : Mock) : Except LinkError Unit × Mock :=
  if !m.connected then (.error .disconnected, m)
  else if m.size < report.length then (.error (.reportTooLarge report.length m.size), m)
  else (.ok (), { m with log := report :: m.log })

def read (milliseconds : Nat) (m : Mock) : Except LinkError Report × Mock :=
  if !m.connected then (.error .disconnected, m)
  else
    match m.queue with
    | some report :: rest => (.ok report, { m with queue := rest })
    | none :: rest => (.error (.timeout milliseconds), { m with queue := rest })
    | [] => (.error (.timeout milliseconds), m)

def device : Device Mock := ⟨write, read⟩

end Mock

end UniversalRemote
