import UniversalRemote.Chunk
import UniversalRemote.FileTransfer.Packet
import UniversalRemote.Sequence
/-!
# File transfers

Data and control packets of a transfer share one rolling number. The number goes on behind a
failure, because the packet that ends the transfer carries it too.
-/

namespace UniversalRemote.FileTransfer

/-- An exchange that numbers its packets. -/
abbrev Numbered := ExceptT (Halt RemoteError) (StateT Sequence Program)

namespace Numbered

def lift (x : Exchange RemoteError α) : Numbered α :=
  ExceptT.mk fun sequence => x.run.bind fun answer => .done (answer, sequence)

instance : MonadLift (Exchange RemoteError) Numbered := ⟨lift⟩

def next : Numbered UInt8 :=
  ExceptT.mk fun sequence => .done (.ok sequence.current, sequence.advance)

def refuse (cause : ProtocolError) : Numbered α :=
  throw (.failed (.protocol cause))

def progress (stage : Stage) (current total : Nat) : Numbered Unit :=
  lift (Exchange.progress stage current total)

/-- The outcome of an exchange that begins at a number, with a failure as a value, and the numbers
that follow. -/
def attempt (x : Numbered α) (sequence : Sequence) :
    Exchange RemoteError (Except RemoteError α × Sequence) :=
  ExceptT.mk ((x.run.run sequence).bind fun
    | (.ok a, rest) => .done (.ok (.ok a, rest))
    | (.error (.failed cause), rest) => .done (.ok (.error cause, rest))
    | (.error .overflow, _) => .done (.error .overflow)
    | (.error .stalled, _) => .done (.error .stalled))

/-- An exchange that uses a token, and ends its use whatever happens. -/
def holding (token : UInt8) (body : Numbered α) (sequence : Sequence) :
    Exchange RemoteError α := do
  let (outcome, rest) ← body.attempt sequence
  let closed ← Exchange.attempt (release rest.current token)
  Exchange.first outcome closed

end Numbered

open Exchange (receive send check)

/-- The numbers that follow the one of a first data packet. -/
def numberData (expected : Option Sequence) (number : UInt8) : Except ProtocolError Sequence :=
  match expected with
  | none => .ok (Sequence.sixBit number).advance
  | some expected => expected.accept number

/-- Receives so many data packets of a file of `length` bytes behind those received, newest first;
`unacked` counts those since the last acknowledgement. -/
def receiveData (token : UInt8) (length : Nat) (stage : Stage) :
    Nat → Option Sequence → Nat → Nat → List (List UInt8) → Numbered (List (List UInt8))
  | 0, _, _, received, past => do
    if received ≠ length then
      Numbered.refuse (.lengthMismatch length received)
    return past
  | left + 1, expected, unacked, received, past => do
    let report ← receive fileWait
    match report with
    | number :: header :: payload =>
      let expected ← check (numberData expected number)
      let size := (header &&& 0x3F).toNat
      if payload.length < size then
        Numbered.refuse (.shortPacket (2 + size) (2 + payload.length))
      let received := received + size
      if length < received then
        Numbered.refuse (.lengthMismatch length received)
      Numbered.progress stage received length
      let past := payload.take size :: past
      if 0 < left ∧ unacked + 1 = ackInterval then
        let number ← Numbered.next
        let _ ← converse (readAck number token (window (left + 1))) promptWait
        receiveData token length stage left expected 0 received past
      else receiveData token length stage left expected (unacked + 1) received past
    | _ => Numbered.refuse (.shortPacket 2 report.length)

def receiveFile (token : UInt8) (length : Nat) (stage : Stage) : Numbered (List UInt8) := do
  let number ← Numbered.next
  let packets := countedPackets length
  let _ ← converse (readAck number token (window packets)) promptWait
  let payloads ← receiveData token length stage (packets - 1) none 0 0 []
  return payloads.reverse.flatten

/-- The contents of a file; the packets are numbered from `start` on. -/
def fetch (name : String) (start : UInt8) (stage : Stage) : Exchange RemoteError (List UInt8) := do
  admitName name 55
  let sequence := Sequence.sixBit start
  let (token, length) ← openFile (openToRead sequence.current 0x02 name) fileWait
  Numbered.holding token (receiveFile token length stage) sequence.advance

/-- Sends the data packets of a file of `length` bytes behind those sent. The remote asks for an
acknowledgement at times; `unacked` counts the packets since the last. -/
def sendData (token : UInt8) (length : Nat) (stage : Stage) :
    List (List UInt8) → Nat → Nat → Numbered Unit
  | [], _, _ => pure ()
  | chunk :: rest, unacked, sent => do
    let number ← Numbered.next
    send (dataPacket number chunk)
    let sent := sent + chunk.length
    if unacked + 1 = ackInterval then
      let _ ← receive fileWait
      let number ← Numbered.next
      send (writeAck number token (window (rest.length + 2)))
      Numbered.progress stage sent length
      sendData token length stage rest 0 sent
    else
      Numbered.progress stage sent length
      sendData token length stage rest (unacked + 1) sent

def sendFile (token : UInt8) (data : List UInt8) (stage : Stage) : Numbered Unit :=
  sendData token data.length stage (chunks dataSize data) 0 0

/-- Stores a file. The first acknowledgement is not answered. -/
def store (name : String) (data : List UInt8) : Exchange RemoteError Unit := do
  admitName name 50
  let sequence := Sequence.sixBit 0
  let (token, _) ← openFile (openToWrite sequence.current name data.length) fileWait
  let body : Numbered Unit := do
    let number ← Numbered.next
    send (writeAck number token (window (countedPackets data.length)))
    sendFile token data .storeFile
    let _ ← converse endOfData storeWait
  body.holding token sequence.advance

end UniversalRemote.FileTransfer
