import UniversalRemote.Stream
import UniversalRemote.Z.Datagram
/-!
# Stream channels

Longer transfers over reports run on a stream. The remote opens it when asked to, each side numbers
and acknowledges what it sends, and a closing exchange ends it.
-/

namespace UniversalRemote.Z

open Exchange

structure Packet where
  flags : UInt8
  /-- The command that is answered; a bare acknowledgement answers none. -/
  command : Option UInt8
  status : UInt8
  body : List UInt8
  deriving DecidableEq, Repr

/-- The packet that a report `[length, flags, seq, ack, type, command, status, …]` carries. -/
def Packet.ofReport (report : Report) : Except ProtocolError Packet :=
  let stop := (report.headD 0).toNat + 1
  let flags := report.getD 1 0
  if report.length < stop then .error (.shortPacket stop report.length)
  else
    match (report.take stop).drop 4 with
    | [] => .ok ⟨flags, none, 0, []⟩
    | _ :: command :: status :: body => .ok ⟨flags, some command, status, body⟩
    | _ => .error (.malformed "truncated stream payload")

/-- The body of a packet that must answer a command. -/
def Packet.demand (packet : Packet) (command : UInt8) (doing : String) :
    Exchange RemoteError (List UInt8) := do
  if packet.command ≠ some command then
    refuse (.unexpectedResponse (packet.command.getD 0) doing)
  if packet.status ≠ statusOk then refuse (.deviceStatus packet.status)
  return packet.body

namespace Channel

def payloadLimit : Nat := 58

/-- The number of packets that a closing host waits for. -/
def closingReads : Nat := 8

def sendRequest (stream : Stream) (command : UInt8) (payload : List UInt8) :
    Exchange RemoteError Stream := do
  if payloadLimit < payload.length then
    refuse (.invalidArgument
      s!"stream payload of {payload.length} bytes exceeds {payloadLimit}")
  let (h, stream) := stream.header 0
  send ([UInt8.ofNat (5 + payload.length), h.flags, h.seq, h.ack, 0x00, command] ++ payload)
  return stream

def acknowledge (stream : Stream) (flags : UInt8) : Exchange RemoteError Stream := do
  let (h, stream) := stream.header flags
  send [3, h.flags, h.seq, h.ack]
  return stream

def receivePacket (stream : Stream) (timeout : Nat) : Exchange RemoteError (Packet × Stream) := do
  let report ← receive timeout
  let stream ← check (stream.absorb report)
  return (← check (Packet.ofReport report), stream)

def converse (stream : Stream) (command : UInt8) (payload : List UInt8) (timeout : Nat) :
    Exchange RemoteError (Packet × Stream) := do
  receivePacket (← sendRequest stream command payload) timeout

def carryOut (stream : Stream) (command : UInt8) (payload : List UInt8) (doing : String) :
    Exchange RemoteError Stream := do
  let (packet, stream) ← converse stream command payload promptWait
  let _ ← packet.demand command doing
  return stream

def acknowledgeAndWait (stream : Stream) : Exchange RemoteError (Packet × Stream) := do
  receivePacket (← acknowledge stream 0) promptWait

/-- Asks the remote to open a stream, and takes in its opening packet. -/
def establish : Exchange RemoteError Stream := do
  let _ ← hidLink.ask 0x40 hidLink.none promptWait "opening the update channel"
  let (packet, stream) ← receivePacket {} promptWait
  if packet.flags &&& synFlag = 0 then
    refuse (.malformed "stream did not open with SYN")
  return stream

/-- Waits for the remote to close its side, for so many packets or until it falls silent; absent
where it does not. -/
def awaitClosing : Nat → Stream → Exchange RemoteError (Option Stream)
  | 0, _ => pure none
  | reads + 1, stream => do
    match ← attempt (receivePacket stream promptWait) with
    | .ok (packet, stream) =>
      if packet.flags &&& finFlag ≠ 0 then pure (some stream) else awaitClosing reads stream
    | .error cause => if cause.timedOut then pure none else fail cause

/-- Closes a stream. A remote that does not close its side, or sends nothing more, is let go. -/
def close (stream : Stream) : Exchange RemoteError Unit := do
  let stream ← acknowledge stream finFlag
  match ← awaitClosing closingReads stream with
  | none => pure ()
  | some stream =>
    let _ ← acknowledge stream 0
    match ← attempt (receive promptWait) with
    | .ok _ => pure ()
    | .error cause => if cause.timedOut then pure () else fail cause

end Channel

end UniversalRemote.Z
