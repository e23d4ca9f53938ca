import UniversalRemote.ByteOrder
import UniversalRemote.Link.Program
import UniversalRemote.Text.Utf8
/-!
# Packets of file transfers

A control packet begins with `0xFF` and an operation, a data packet with its number and its length.
A remote opens a file with a token that later control packets carry.
-/

namespace UniversalRemote.FileTransfer

open Exchange

/-- How long to wait for a prompt answer, in milliseconds. -/
def promptWait : Nat := 500

/-- How long to wait while a file is handled, in milliseconds. -/
def fileWait : Nat := 5000

/-- How long to wait for a remote to have stored a file, in milliseconds. -/
def storeWait : Nat := 20000

/-- The number of bytes that a data packet has room for. -/
def dataSize : Nat := 62

/-- The number of data packets between two acknowledgements. -/
def ackInterval : Nat := 50

/-- The number of packets that a remote counts for a file: one more than its data packets. -/
def countedPackets (length : Nat) : Nat :=
  (length + dataSize - 1) / dataSize + 1

/-- How many of the remaining packets an acknowledgement asks for. -/
def window (packets : Nat) : UInt8 :=
  UInt8.ofNat (min packets 0x33)

def openRequest (number parameters : UInt8) (name : String) (mode : UInt8)
    (extra : List UInt8) : Report :=
  [0xFF, 0x01, number, parameters, 0x80] ++ Utf8.encode name ++ [0x00, 0x80, mode, 0x00] ++ extra

def openToRead (number parameters : UInt8) (name : String) : Report :=
  openRequest number parameters name 0x52 []

def openToWrite (number : UInt8) (name : String) (length : Nat) : Report :=
  openRequest number 0x03 name 0x57 (0x04 :: ByteOrder.big.bytes 4 length)

/-- The acknowledgement that lets a remote send so many packets. -/
def readAck (number token packets : UInt8) : Report :=
  [0xFF, 0x04, number, 0x02, 0x01, token, 0x01, packets]

/-- The acknowledgement that announces so many packets to a remote. -/
def writeAck (number token packets : UInt8) : Report :=
  [0xFF, 0x03, number, 0x02, 0x01, token, 0x01, packets]

def endOfData : Report := [0x7E]

/-- The packet that ends the use of a token. -/
def releasePacket (number token : UInt8) : Report :=
  [0xFF, 0x07, number, 0x01, 0x01, token]

def dataPacket (number : UInt8) (data : List UInt8) : Report :=
  number :: UInt8.ofNat data.length :: data

def converse (report : Report) (timeout : Nat) : Exchange RemoteError Report := do
  send report
  receive timeout

def release (number token : UInt8) : Exchange RemoteError Unit := do
  let _ ← converse (releasePacket number token) fileWait

/-- The token and the length of a file in the answer to an open request. -/
def opened (answer : Report) : Except ProtocolError (UInt8 × Nat) :=
  if answer.length < 11 then .error (.shortPacket 11 answer.length)
  else .ok (answer.getD 5 0, ByteOrder.big.value ((answer.drop 7).take 4))

def openFile (request : Report) (timeout : Nat) : Exchange RemoteError (UInt8 × Nat) := do
  check (opened (← converse request timeout))

/-- Refuses a file name of more than so many bytes. -/
def admitName (name : String) (limit : Nat) : Exchange RemoteError Unit :=
  if limit < name.utf8ByteSize then
    refuse (.invalidArgument s!"file name '{name}' exceeds {limit} bytes")
  else pure ()

end UniversalRemote.FileTransfer
