import UniversalRemote.Classic.Basic
import UniversalRemote.FileTransfer.Sysinfo
import UniversalRemote.FileTransfer.Transfer
import UniversalRemote.Image
/-!
# Remotes that keep files

The operations of remotes whose configuration and description are files.
-/

namespace UniversalRemote.FileTransfer

open Exchange

def capabilities : List Capability :=
  [.identify, .restart, .learnIr, .fetchFile, .storeFile, .installConfig]

/-- The file that describes the remote. -/
def sysinfoName : String := "/sys/sysinfo"

def configName : String := "/cfg/usercfg"

def captureName : String := "/ir/ir_cap"

def captureToken : UInt8 := 0x0C

/-- The token under which the size of the configuration is asked for. -/
def identityToken : UInt8 := 0x06

def hello : Report := [0xFF, 0x00, 0x00, 0x01, 0x01]

def greet : Nat → Exchange RemoteError Unit
  | 0 => pure ()
  | times + 1 => do
    send hello
    greet times

/-- The size of the stored configuration, which the remote tells when the file is opened. -/
def configLength : Exchange RemoteError Nat := do
  let request := openToRead 0x00 0x03 configName
  let answer ← attempt (openFile request promptWait)
  let closed ← attempt (release 0x01 identityToken)
  return (← first answer closed).2

/-- The number of bytes that a stored configuration of some length takes up with its end marker;
absent where it leaves its machine word. -/
def usedBytes (length : Nat) : Option UInt32 :=
  checkedSum (UInt32.ofNat length) 4

def identify : Exchange RemoteError Identity := do
  greet 5
  let _ ← converse [0xFF, 0xFF, 0x01, 0x01, 0x01, 0x66] promptWait
  let _ ← converse [0xFF, 0x00, 0x02] promptWait
  let contents ← fetch sysinfoName 0x03 .identify
  let identity := Sysinfo.identity contents
  progress .identify 1 2
  let length ← configLength
  let used ← ofChecked (usedBytes length)
  let capacity := ((identity.chip.map (·.kibibytes)).getD 0) <<< 10
  progress .identify 2 2
  return { identity with area := { valid := true, used, capacity } }

/-- Restarts a remote, which knows one way only. -/
def restart : Exchange RemoteError Unit := do
  let _ ← converse [0xFF, 0xFF, 0x02, 0x01, 0x01] fileWait

/-- Captures a signal; the capture is stopped and its token given back even where it fails. -/
def learn (patience : Nat) : Exchange RemoteError Signal := do
  let _ ← converse (openToRead 0x00 0x02 captureName) promptWait
  let _ ← converse (readAck 0x01 captureToken 0x00) promptWait
  let captured ← attempt (Signal.capture 0x90 patience)
  let stopped ← attempt
    (converse [0xFF, 0x06, 0x02, 0x02, 0x01, captureToken, 0x01, 0x06] promptWait)
  let closed ← attempt (release 0x03 captureToken)
  let signal ← first captured stopped
  first (.ok signal) closed

/-- A configuration with an end marker: one is added where there is none. -/
def withMarker (contents : List UInt8) : List UInt8 :=
  if (markerStop contents).isSome then contents else contents ++ endMarker

/-- The contents of a file. A configuration always comes with an end marker. -/
def fetchFile (name : String) : Exchange RemoteError (List UInt8) := do
  let contents ← fetch name 0x00 .fetchFile
  return if name = configName then withMarker contents else contents

/-- The packet that closes an update with the attributes of its checksum. -/
def finishPacket (number token : UInt8) (checksum : ChecksumRecord) : Report :=
  [0xFF, 0x06, number, 0x07, 0x01, token, 0x01, 0x01, 0x80] ++ checksum.kind.bytes ++ [0x00, 0x02]
    ++ ByteOrder.big.bytes16 checksum.seed ++ [0x04, 0x00, 0x00, 0x00, 0x00, 0x04]
    ++ ByteOrder.big.bytes32 checksum.length ++ [0x02] ++ ByteOrder.big.bytes16 checksum.expected

def sendImage (token : UInt8) (data : List UInt8) (checksum : ChecksumRecord) :
    Numbered Unit := do
  send (writeAck 0x03 token 0x33)
  Numbered.progress .initializeUpdate 3 3
  sendFile token data .writeUpdate
  let _ ← converse endOfData fileWait
  Numbered.progress .finalizeUpdate 1 4
  let number ← Numbered.next
  let _ ← converse (finishPacket number token checksum) fileWait
  Numbered.progress .finalizeUpdate 2 4
  let number ← Numbered.next
  let _ ← converse [0xFF, 0x05, number, 0x02, 0x01, token, 0x01, 0x00] fileWait
  Numbered.progress .finalizeUpdate 3 4

/-- Installs a configuration whose checksum is right. The numbers one and three are used before
the data, which begins at four. -/
def install (image : Image) : Exchange RemoteError Unit := do
  let checksum := image.checksum.getD (ChecksumRecord.ofConfig image.data)
  let computed := fileChecksum image.data
  if checksum.expected ≠ computed then
    fail (.mismatch (.checksum checksum.expected computed))
  progress .initializeUpdate 0 3
  let _ ← converse [0xFF, 0xFF, 0x00, 0x01, 0x01, 0x66] fileWait
  progress .initializeUpdate 1 3
  let (token, _) ← openFile (openToWrite 0x01 configName image.data.length) fileWait
  progress .initializeUpdate 2 3
  Numbered.holding token (sendImage token image.data checksum) (Sequence.sixBit 0x04)
  progress .finalizeUpdate 4 4

end UniversalRemote.FileTransfer
