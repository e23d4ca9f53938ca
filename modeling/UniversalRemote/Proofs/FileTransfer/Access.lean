import UniversalRemote.FileTransfer.Basic
import UniversalRemote.Proofs.FileTransfer.Reception
import UniversalRemote.Proofs.Link.Access
/-!
# File transfers within bounds

The token and length of an opened file, the payloads of data packets, the packets that are left to
send and the bytes that a checksum covers are looked up and counted here where they may be missing.
`WithinBounds` says that the exchanges are the same.
-/

namespace UniversalRemote.FileTransfer

open Exchange

def Numbered.ofChecked (value : Option α) : Numbered α :=
  lift (Exchange.ofChecked value)

theorem Numbered.ofChecked_some_bind (a : α) (f : α → Numbered β) :
    (ofChecked (some a) >>= f) = f a := rfl

theorem Numbered.check_ok_bind (a : α) (f : α → Numbered β) :
    ((liftM (check (.ok a)) : Numbered α) >>= f) = f a := rfl

/-! ## Opening -/

section Opening

def opened? (answer : Report) : Option (Except ProtocolError (UInt8 × Nat)) :=
  if answer.length < 11 then some (.error (.shortPacket 11 answer.length))
  else do
    let token ← answer[5]?
    let length ← slice? answer 7 11
    return .ok (token, ByteOrder.big.value length)

def openFile? (request : Report) (timeout : Nat) : Exchange RemoteError (UInt8 × Nat) := do
  checked (opened? (← converse request timeout))

theorem opened?_eq (answer : Report) : opened? answer = some (opened answer) := by
  unfold opened? opened
  split
  · rfl
  · rename_i h
    have hlength : slice? answer 7 (7 + 4) = some ((answer.drop 7).take 4) :=
      slice?_add (by omega)
    rw [getElem?_eq_getD (show 5 < answer.length by omega) 0, hlength]
    rfl

theorem openFile?_eq : openFile? = openFile := by
  funext request timeout
  unfold openFile? openFile
  simp only [opened?_eq, checked_some]

end Opening

/-! ## Receiving -/

section Receiving

/-- What a packet brings as data behind `received` bytes, by the places of its bytes: the numbers that
follow, and the payload. -/
def dataOf? (expected : Option Sequence) (length received : Nat) (packet : Report) :
    Option (Except ProtocolError (Sequence × List UInt8)) :=
  if packet.length < 2 then some (.error (.shortPacket 2 packet.length))
  else do
    match numberData expected (← packet[0]?) with
    | .error cause => return .error cause
    | .ok following =>
      let size := ((← packet[1]?) &&& 0x3F).toNat
      if packet.length < 2 + size then return .error (.shortPacket (2 + size) packet.length)
      if length < received + size then return .error (.lengthMismatch length (received + size))
      return .ok (following, ← slice? packet 2 (2 + size))

def receiveData? (token : UInt8) (length : Nat) (stage : Stage) :
    Nat → Option Sequence → Nat → Nat → List (List UInt8) → Numbered (List (List UInt8))
  | 0, _, _, received, past => do
    if received ≠ length then
      Numbered.refuse (.lengthMismatch length received)
    return past
  | left + 1, expected, unacked, received, past => do
    let packet ← receive fileWait
    let (following, data) ← checked (dataOf? expected length received packet)
    let received := received + data.length
    Numbered.progress stage received length
    if 0 < left ∧ unacked + 1 = ackInterval then
      let number ← Numbered.next
      let _ ← converse (readAck number token (window (left + 1))) promptWait
      receiveData? token length stage left (some following) 0 received (data :: past)
    else
      receiveData? token length stage left (some following) (unacked + 1) received (data :: past)

def receiveFile? (token : UInt8) (length : Nat) (stage : Stage) : Numbered (List UInt8) := do
  let number ← Numbered.next
  let packets := countedPackets length
  let _ ← converse (readAck number token (window packets)) promptWait
  let left ← Numbered.ofChecked (difference? packets 1)
  let payloads ← receiveData? token length stage left none 0 0 []
  return payloads.reverse.flatten

theorem dataOf?_eq (expected : Option Sequence) (length received : Nat) (packet : Report) :
    dataOf? expected length received packet =
      some ((takeIn expected length received packet).map (·, payload packet)) := by
  match packet with
  | [] | [_] => rfl
  | number :: header :: data =>
    have hlong : ¬ (number :: header :: data).length < 2 := by
      simp only [List.length_cons]
      omega
    unfold dataOf? takeIn payload
    rw [if_neg hlong, payloadSize_cons_cons]
    dsimp only [List.getElem?_cons_zero, List.getElem?_cons_succ, Option.bind_eq_bind,
      Option.bind_some]
    cases numberData expected number with
    | error cause => rfl
    | ok following =>
      dsimp only
      split
      · rfl
      · rename_i hfull
        rw [slice?_add (Nat.not_lt.1 hfull)]
        split
        · rfl
        · rfl

theorem receiveData?_eq (token : UInt8) (length : Nat) (stage : Stage) (left : Nat)
    (expected : Option Sequence) (unacked received : Nat) (past : List (List UInt8)) :
    receiveData? token length stage left expected unacked received past =
      receiveData token length stage left expected unacked received past := by
  induction left generalizing expected unacked received past with
  | zero => rfl
  | succ left ih =>
    rw [receiveData?, receiveData_succ]
    congr 1
    funext packet
    rw [dataOf?_eq, checked_some]
    cases htaken : takeIn expected length received packet with
    | error cause => rfl
    | ok following =>
      have hlength := (takeIn_eq_ok_iff.1 htaken).1.length_payload
      rw [Except.map, Numbered.check_ok_bind, Numbered.check_ok_bind]
      simp only [hlength, ih]

theorem receiveFile?_eq : receiveFile? = receiveFile := by
  funext token length stage
  unfold receiveFile? receiveFile
  have hcounted : 1 ≤ countedPackets length := Nat.le_add_left 1 _
  simp only [difference?_eq hcounted, Numbered.ofChecked_some_bind, receiveData?_eq]

end Receiving

/-! ## Sending -/

section Sending

def sendData? (token : UInt8) (length : Nat) (stage : Stage) :
    List (List UInt8) → Nat → Nat → Nat → Numbered Unit
  | [], _, _, _ => pure ()
  | chunk :: rest, remaining, unacked, sent => do
    let number ← Numbered.next
    send (dataPacket number chunk)
    let sent := sent + chunk.length
    let remaining ← Numbered.ofChecked (difference? remaining 1)
    if unacked + 1 = ackInterval then
      let _ ← receive fileWait
      let number ← Numbered.next
      send (writeAck number token (window (remaining + 1)))
      Numbered.progress stage sent length
      sendData? token length stage rest remaining 0 sent
    else
      Numbered.progress stage sent length
      sendData? token length stage rest remaining (unacked + 1) sent

def sendFile? (token : UInt8) (data : List UInt8) (stage : Stage) : Numbered Unit := do
  let pieces ← Numbered.ofChecked (chunks? dataSize data)
  sendData? token data.length stage pieces (countedPackets data.length) 0 0

theorem sendData?_eq (token : UInt8) (length : Nat) (stage : Stage) (pieces : List (List UInt8))
    (unacked sent : Nat) :
    sendData? token length stage pieces (pieces.length + 1) unacked sent =
      sendData token length stage pieces unacked sent := by
  induction pieces generalizing unacked sent with
  | nil => rfl
  | cons chunk rest ih =>
    have hremaining : difference? ((chunk :: rest).length + 1) 1 = some (rest.length + 1) :=
      difference?_eq (Nat.le_add_left 1 _)
    unfold sendData? sendData
    rw [hremaining]
    simp only [Numbered.ofChecked_some_bind, ih]

theorem sendFile?_eq : sendFile? = sendFile := by
  funext token data stage
  have hsize : 0 < dataSize := by decide
  have hcounted : countedPackets data.length = (chunks dataSize data).length + 1 := by
    rw [countedPackets, length_chunks hsize]
  unfold sendFile? sendFile
  rw [chunks?_eq hsize, hcounted, Numbered.ofChecked_some_bind, sendData?_eq]

def fileChecksum? (data : List UInt8) : Option UInt16 :=
  (slice? data 0 (coveredLength data.length)).map imageChecksum

theorem fileChecksum?_eq (data : List UInt8) : fileChecksum? data = some (fileChecksum data) := by
  have hcovered : coveredLength data.length ≤ data.length := by
    unfold coveredLength
    omega
  unfold fileChecksum?
  rw [slice?_zero hcovered]
  rfl

end Sending

/-- What a host reads of the reports of a remote that keeps files, and counts of what it sends, is
there. -/
structure WithinBounds : Prop where
  openFile : openFile? = openFile
  receiveFile : receiveFile? = receiveFile
  sendFile : sendFile? = sendFile
  fileChecksum : ∀ data, fileChecksum? data = some (fileChecksum data)

theorem withinBounds : WithinBounds where
  openFile := openFile?_eq
  receiveFile := receiveFile?_eq
  sendFile := sendFile?_eq
  fileChecksum := fileChecksum?_eq

end UniversalRemote.FileTransfer
