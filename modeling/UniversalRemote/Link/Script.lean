import UniversalRemote.Link.Device
/-!
# Scripted devices

A device whose reads are written down beforehand, failures included, and which fails chosen writes.
-/

namespace UniversalRemote

inductive ScriptedRead where
  | report (report : Report)
  | silence
  | failure (cause : LinkError)
  deriving DecidableEq, Repr

structure Script where
  /-- The reads still to come. Behind them, nothing arrives in time. -/
  reads : List ScriptedRead := []
  /-- The number of writes so far, failed ones included. -/
  writes : Nat := 0
  /-- The writes that fail, by their number. -/
  failures : Nat → Option LinkError := fun _ => none

namespace Script

def write (_ : Report) (s : Script) : Except LinkError Unit × Script :=
  (match s.failures s.writes with
    | some cause => .error cause
    | none => .ok (), { s with writes := s.writes + 1 })

def read (milliseconds : Nat) (s : Script) : Except LinkError Report × Script :=
  match s.reads with
  | .report report :: rest => (.ok report, { s with reads := rest })
  | .silence :: rest => (.error (.timeout milliseconds), { s with reads := rest })
  | .failure cause :: rest => (.error cause, { s with reads := rest })
  | [] => (.error (.timeout milliseconds), s)

def device : Device Script := ⟨write, read⟩

end Script

end UniversalRemote
