import UniversalRemote.Classic.Flash
import UniversalRemote.Classic.State
import UniversalRemote.Identity
import UniversalRemote.Infrared.Capture
import UniversalRemote.Serial
/-!
# Classic remotes

A classic remote is driven with its protocol version and architecture, which it tells when asked
for its identity. Until then, operations that depend on them are refused.
-/

namespace UniversalRemote

/-- What a classic remote tells of how it is driven. -/
structure Geometry where
  protocol : UInt8
  architecture : UInt16
  deriving DecidableEq, Repr

structure Classic where
  /-- The number of reports that the host takes for one chunk or signal. -/
  patience : Nat
  geometry : Option Geometry := none
  deriving DecidableEq, Repr

inductive Restart where
  | usb
  | device
  | deviceDisconnect
  | testFinish
  deriving DecidableEq, Repr

namespace Restart

def code : Restart → UInt8
  | usb => 1
  | device => 2
  | deviceDisconnect => 3
  | testFinish => 4

def name : Restart → String
  | usb => "Usb"
  | device => "Device"
  | deviceDisconnect => "DeviceDisconnect"
  | testFinish => "TestFinish"

end Restart

namespace Classic

open Exchange

def capabilities : List Capability :=
  [.identify, .restart, .readFlash, .writeFlash, .eraseFlash, .invalidateConfig, .readClock,
    .setClock, .learnIr]

def known (c : Classic) : Exchange RemoteError Geometry :=
  match c.geometry with
  | some geometry => pure geometry
  | none => refuse .notIdentified

def framing (c : Classic) : Exchange RemoteError Framing := do
  return Framing.ofProtocol (← c.known).protocol

def read (c : Classic) (address : UInt32) (length : Nat) : Exchange RemoteError (List UInt8) := do
  readFlash (← c.framing) c.patience address length

def verify (c : Classic) (address : UInt32) (expected : List UInt8) :
    Exchange RemoteError Unit := do
  compareFlash (← c.framing) c.patience address expected

def write (c : Classic) (address : UInt32) (data : List UInt8) : Exchange RemoteError Unit := do
  writeFlash (← c.framing) address data

def readClock (c : Classic) : Exchange RemoteError DateTime := do
  readClockOf (← c.known).architecture

def setClock (c : Classic) (t : DateTime) : Exchange RemoteError Unit := do
  setClockOf (← c.known).architecture t

/-- Restarts the remote, which leaves the link without an answer. -/
def restart (kind : Restart) : Exchange RemoteError Unit :=
  send [0xE1, kind.code]

/-- Captures a signal; the remote is told to stop even where that fails. -/
def learn (c : Classic) : Exchange RemoteError Signal := do
  send [0x70]
  let captured ← attempt (Signal.capture 0x90 c.patience)
  let stopped ← attempt (send [0x80])
  first captured stopped

/-- The identity in the seven bytes behind the code of a version response. The short response,
of code five, leaves out what only later remotes tell. -/
def identityOf (code : UInt8) (body : List UInt8) : Identity :=
  let long := code = 7
  let byte := fun i => body.getD i 0
  { family := .classic
    firmwareMajor := (byte 0 >>> 4).toUInt16
    firmwareMinor := (byte 0 &&& 0x0F).toUInt16
    firmwareType := if long then byte 4 &&& 0x0F else 0
    hardwareMajor := byte 1 >>> 4
    hardwareMinor := byte 1 &&& 0x0F
    architectureCode := if long then (byte 4 >>> 4).toUInt16 else 2
    skin := if long then (byte 5).toUInt16 else 2
    flashDevice := byte 2
    flashManufacturer := byte 3
    protocol := if long then byte 6 else 0 }

def announce : Exchange RemoteError Identity := do
  send [0x10]
  let (code, body) ← receivePacket promptWait
  let length := lengthCode code
  if kind code ≠ 0x20 ∨ (length ≠ 7 ∧ length ≠ 5) then unexpected code "requesting identity"
  if body.length < 7 then refuse (.shortPacket 8 (body.length + 1))
  return identityOf length body

/-- Completes an identity from flash: the state of the configuration, and the serial numbers. The
earliest architecture keeps those in a memory of its own. -/
def describe (c : Classic) (identity : Identity) : Exchange RemoteError Identity := do
  let map ← check identity.memoryMap
  let header ← c.read map.configBase 1024
  let kibibytes := (identity.chip.map (·.kibibytes)).getD 0
  let serial ←
    if identity.architectureCode = 2 then readBytes eepromSpace 0x10 48
    else c.read 0x110 48
  progress .identify 1 1
  return { identity with
    area := ConfigArea.ofHeader map kibibytes header
    serials := Serial.ofBytes serial }

def learned (c : Classic) (identity : Identity) : Classic :=
  { c with geometry := some ⟨identity.protocol, identity.architectureCode⟩ }

/-- Asks a remote for its identity. Its geometry is known from then on, also where completing the
identity fails. -/
def identify (c : Classic) : Program (Except (Halt RemoteError) Identity × Classic) := do
  match ← announce.run with
  | .error halt => return (.error halt, c)
  | .ok identity =>
    let c := c.learned identity
    return (← (c.describe identity).run, c)

end Classic

end UniversalRemote
