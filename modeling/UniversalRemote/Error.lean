import UniversalRemote.Family
import UniversalRemote.Text.Numeral
/-!
# Errors

What can go wrong between a host and a remote, by cause. Each cause has its wording in one
`message` function.
-/

namespace UniversalRemote

inductive LinkError where
  | deviceNotFound (vendor product : UInt16)
  | openFailed (reason : String)
  | claimInterfaceFailed (interface : UInt8) (reason : String)
  | endpointNotFound (kind direction : String)
  | writeFailed (reason : String)
  | readFailed (reason : String)
  | reportTooLarge (length limit : Nat)
  | disconnected
  | timeout (milliseconds : Nat)
  | io (reason : String)
  deriving DecidableEq, Repr

namespace LinkError

def message : LinkError → String
  | deviceNotFound vendor product =>
    s!"Device not found: VID={Hex.text 4 vendor.toNat} PID={Hex.text 4 product.toNat}"
  | openFailed reason => s!"Failed to open device: {reason}"
  | claimInterfaceFailed interface reason =>
    s!"Failed to claim interface {interface.toNat}: {reason}"
  | endpointNotFound kind direction => s!"Endpoint not found: type={kind}, direction={direction}"
  | writeFailed reason => s!"Write failed: {reason}"
  | readFailed reason => s!"Read failed: {reason}"
  | reportTooLarge length limit =>
    s!"Report of {length} bytes exceeds the {limit}-byte report size"
  | disconnected => "Device disconnected"
  | timeout milliseconds => s!"Timeout after {milliseconds}ms"
  | io reason => s!"IO error: {reason}"

def timedOut : LinkError → Bool
  | timeout _ => true
  | _ => false

end LinkError

/-- Traffic, or an argument, that the protocol does not admit. -/
inductive ProtocolError where
  | sequenceMismatch (expected actual : UInt8)
  | unexpectedResponse (code : UInt8) (doing : String)
  | shortPacket (expected actual : Nat)
  | lengthMismatch (declared received : Nat)
  | malformed (what : String)
  | endMarkerNotFound (limit : Nat)
  | deviceStatus (status : UInt8)
  | invalidArgument (reason : String)
  | notIdentified
  deriving DecidableEq, Repr

namespace ProtocolError

def message : ProtocolError → String
  | sequenceMismatch expected actual =>
    s!"Sequence mismatch: expected 0x{Hex.text 2 expected.toNat}, got 0x{Hex.text 2 actual.toNat}"
  | unexpectedResponse code doing =>
    s!"Unexpected response 0x{Hex.text 2 code.toNat} while {doing}"
  | shortPacket expected actual => s!"Short packet: need {expected} bytes, got {actual}"
  | lengthMismatch declared received =>
    s!"Length mismatch: declared {declared} bytes, received {received}"
  | malformed what => s!"Malformed packet: {what}"
  | endMarkerNotFound limit => s!"End marker not found within {limit} bytes"
  | deviceStatus status => s!"Device reported status 0x{Hex.text 2 status.toNat}"
  | invalidArgument reason => s!"Invalid argument: {reason}"
  | notIdentified => "Operation requires a prior identify"

end ProtocolError

/-- Stored data that differs from what it should be. -/
inductive Mismatch where
  | byte (address : UInt32)
  | checksum (expected actual : UInt16)
  deriving DecidableEq, Repr

namespace Mismatch

def message : Mismatch → String
  | byte address => s!"Verify error at 0x{Hex.text 6 address.toNat}"
  | checksum expected actual =>
    let expected := Hex.text 4 expected.toNat
    s!"Checksum mismatch: expected 0x{expected}, device reported 0x{Hex.text 4 actual.toNat}"

end Mismatch

inductive RemoteError where
  | link (cause : LinkError)
  | protocol (cause : ProtocolError)
  | mismatch (cause : Mismatch)
  | notOffered (family : Family) (capability : Capability)
  deriving DecidableEq, Repr

namespace RemoteError

def message : RemoteError → String
  | link cause => cause.message
  | protocol cause => cause.message
  | mismatch cause => cause.message
  | notOffered family capability => s!"{family.name} remotes do not support {capability.name}"

def isNotOffered : RemoteError → Bool
  | notOffered _ _ => true
  | _ => false

def timedOut : RemoteError → Bool
  | link cause => cause.timedOut
  | _ => false

end RemoteError

/-- Why a computation ended without an answer. -/
inductive Halt (ε : Type) where
  /-- It failed, and says why. -/
  | failed (cause : ε)
  /-- A sum or product left its machine word, or a remainder was taken by zero. -/
  | overflow
  /-- The other side kept sending for longer than its listener was willing to listen. -/
  | stalled
  deriving DecidableEq, Repr

namespace Halt

/-- The same end with its cause read in a wider sense. -/
def map (f : ε → δ) : Halt ε → Halt δ
  | failed cause => failed (f cause)
  | overflow => overflow
  | stalled => stalled

end Halt

end UniversalRemote
