import UniversalRemote.ByteOrder
import UniversalRemote.Link.Program
/-!
# Packets of classic remotes

The high half of a packet's first byte is a command or a kind of response, the low half a length
code. Flash addresses have 24 bits, most significant byte first.
-/

namespace UniversalRemote.Classic

open Exchange

/-- How long to wait for a response, in milliseconds. -/
def promptWait : Nat := 500

/-- How long to wait while flash is erased or programmed, in milliseconds. -/
def flashWait : Nat := 5000

def kind (code : UInt8) : UInt8 :=
  code &&& 0xF0

def lengthCode (code : UInt8) : UInt8 :=
  code &&& 0x0F

def done : UInt8 := 0xF0

/-- The low 24 bits of an address. -/
def addressBytes (address : UInt32) : List UInt8 :=
  ByteOrder.big.bytes 3 address.toNat

theorem value_addressBytes {address : UInt32} (h : address.toNat < 0x1000000) :
    ByteOrder.big.value (addressBytes address) = address.toNat := by
  rw [addressBytes, ByteOrder.value_bytes]
  exact Nat.mod_eq_of_lt h

theorem take_addressBytes (address : UInt32) (rest : List UInt8) :
    (addressBytes address ++ rest).take 3 = addressBytes address :=
  List.take_left' (by simp [addressBytes])

theorem drop_addressBytes (address : UInt32) (rest : List UInt8) :
    (addressBytes address ++ rest).drop 3 = rest :=
  List.drop_left' (by simp [addressBytes])

def readCommand (address : UInt32) (length : Nat) : Report :=
  0x55 :: addressBytes address ++ ByteOrder.big.bytes 2 length

def writeCommand (address : UInt32) (length : Nat) : Report :=
  0x35 :: addressBytes address ++ ByteOrder.big.bytes 2 length

/-- The packet that ends the bytes of a write. -/
def writeDone : Report := [0xF1, 0x30]

def eraseCommand (address : UInt32) : Report :=
  0xD3 :: addressBytes address

/-- Waits for a report that is not empty: its first byte and the others. -/
def receivePacket (timeout : Nat) : Exchange RemoteError (UInt8 × List UInt8) := do
  match ← receive timeout with
  | [] => refuse (.shortPacket 1 0)
  | code :: body => pure (code, body)

def unexpected (code : UInt8) (doing : String) : Exchange RemoteError α :=
  refuse (.unexpectedResponse code doing)

end UniversalRemote.Classic
