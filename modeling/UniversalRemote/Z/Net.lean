import UniversalRemote.Z.Hid
/-!
# Z remotes over the network

Over a socket, each request and each answer is one message, and words have their most significant
byte first. A region is announced with its size.
-/

namespace UniversalRemote.Z

open Exchange

/-- The answer that a message `[service, command, status, count, …]` carries. -/
def Response.ofMessage (message : Report) : Except ProtocolError Response :=
  match message with
  | _ :: command :: status :: _ :: _ =>
    (ParameterList.ofNetwork message).map fun parameters =>
      { command, status := status &&& 0x7F, parameters }
  | _ => .error (.shortPacket 4 message.length)

def requestMessage (command : UInt8) (parameters : ParameterWriter) (timeout : Nat) :
    Exchange RemoteError Response := do
  send ([0x20, command, 0x80] ++ parameters.finish)
  check (Response.ofMessage (← receive timeout))

def netLink : Link where
  family := .zNet
  order := .big
  request := requestMessage

def callNet (command : UInt8) (parameters : Except (Halt ProtocolError) ParameterWriter)
    (doing : String) : Exchange RemoteError ParameterList := do
  netLink.ask command (← checkHalt parameters) promptWait doing

/-- Reads the data of a region of `total` bytes, behind the chunks received so far, newest first.
Each answer brings at least one byte, so `total` of them suffice. -/
def receiveNetRegion (total : Nat) : Nat → Nat → List (List UInt8) →
    Exchange RemoteError (List (List UInt8))
  | 0, _, past => pure past
  | answers + 1, received, past =>
    if total ≤ received then pure past
    else do
      let parameters ← callNet 0x48 (.ok netLink.none) "reading region data"
      let chunk ← check (parameters.bytes 0)
      let received := received + chunk.length
      if chunk.isEmpty ∨ total < received then
        refuse (.lengthMismatch total received)
      progress .fetchRegion received total
      receiveNetRegion total answers received (chunk :: past)

def fetchNetRegion (region : Region) : Exchange RemoteError (List UInt8) := do
  let parameters ← callNet 0x47 (netLink.none.byte region.code) "starting region read"
  let total := (← check (parameters.dword 0)).toNat
  let chunks ← receiveNetRegion total total 0 []
  let _ ← callNet 0x49 (.ok netLink.none) "ending region read"
  return chunks.reverse.flatten

/-- The pieces that an image is cut into, each of a length that a parameter can announce. -/
def pieces : List UInt8 → List (List UInt8)
  | [] => []
  | b :: rest =>
    let size := Length.piece (rest.length + 1)
    (b :: rest.take (size - 1)) :: pieces (rest.drop (size - 1))
termination_by data => data.length
decreasing_by
  rw [List.length_drop, List.length_cons]
  omega

def writeNetImage (total : Nat) : List (List UInt8) → Nat → Exchange RemoteError Unit
  | [], _ => pure ()
  | piece :: rest, written => do
    let _ ← callNet 0x43 (netLink.none.bytes piece) "writing update data"
    let written := written + piece.length
    progress .writeUpdate written total
    writeNetImage total rest written

def confirmNetImage (region : UInt8) (image : List UInt8) : Exchange RemoteError Unit := do
  let parameters ← checkHalt (netLink.none.byte region)
  let answer ← netLink.ask 0x45 parameters checksumWait "reading update checksum"
  compareChecksum image (← check (answer.word 0))

def installNet (image : Image) : Exchange RemoteError Unit := do
  if !image.region.isReplaceable then fail (.notOffered .zNet .installConfig)
  let region := image.region.code
  let length := image.data.length
  let _ ← callNet 0x41 (netLink.none.byte region) "starting update"
  let header := netLink.none.dword (UInt32.ofNat length) >>= (·.byte region)
  let _ ← callNet 0x42 header "writing update header"
  progress .initializeUpdate 1 1
  writeNetImage length (pieces image.data) 0
  let _ ← callNet 0x44 (netLink.none.byte region) "ending update data"
  confirmNetImage region image.data
  let _ ← callNet 0x46 (netLink.none.byte region) "finishing update"
  progress .finalizeUpdate 1 1

end UniversalRemote.Z
