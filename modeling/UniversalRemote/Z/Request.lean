import UniversalRemote.Classic.Basic
import UniversalRemote.Parameter.List
import UniversalRemote.Parameter.Writer
/-!
# Requests to Z remotes

Z remotes answer requests, over reports or over a network socket. Both ways share the commands
below and differ in framing and in the order of bytes.
-/

namespace UniversalRemote.Z

open Exchange

structure Response where
  command : UInt8
  status : UInt8
  parameters : ParameterList
  deriving DecidableEq, Repr

def statusOk : UInt8 := 0x01

/-- Holds the command and status that an answer carries against the command asked for. -/
def demand (answered status command : UInt8) (doing : String) : Exchange RemoteError Unit :=
  if answered ≠ command then refuse (.unexpectedResponse answered doing)
  else if status ≠ statusOk then refuse (.deviceStatus status)
  else pure ()

/-- A way to put requests to a Z remote. -/
structure Link where
  family : Family
  order : ByteOrder
  /-- Puts a request, and waits so many milliseconds for its answer. -/
  request : UInt8 → ParameterWriter → Nat → Exchange RemoteError Response

namespace Link

def none (link : Link) : ParameterWriter :=
  { order := link.order }

/-- The parameters of the answer to a request that must be carried out. -/
def ask (link : Link) (command : UInt8) (parameters : ParameterWriter) (timeout : Nat)
    (doing : String) : Exchange RemoteError ParameterList := do
  let response ← link.request command parameters timeout
  demand response.command response.status command doing
  return response.parameters

end Link

/-- How long to wait for an answer, in milliseconds. -/
def promptWait : Nat := 500

def checksumWait : Nat := 30000

def restartWait : Nat := 200

def capabilities : List Capability :=
  [.identify, .restart, .readClock, .setClock, .fetchRegion, .installConfig]

/-- The identity that a description of the system tells. Over the network it begins with the vendor
and product numbers; the flash chip of the others is always the same. -/
def identityOf (family : Family) (info : ParameterList) : Except ProtocolError Identity := do
  let identity : Identity ←
    if family = .zNet then
      let vendor ← info.word 0
      let product ← info.word 1
      pure { family, usbIds := some (vendor, product) }
    else pure { family, flashManufacturer := 0x01, flashDevice := 0x49 }
  let architectureCode ← info.word 2
  let firmwareMajor ← info.word 3
  let firmwareMinor ← info.word 4
  let firmwareType ← info.byte 5
  let skin ← info.word 6
  let hardware ← info.word 7
  return { identity with
    architectureCode, firmwareMajor, firmwareMinor, firmwareType, skin
    hardwareMajor := (hardware >>> 8).toUInt8
    hardwareMinor := ((hardware >>> 4) &&& 0x0F).toUInt8 }

def identify (link : Link) : Exchange RemoteError Identity := do
  let info ← link.ask 0x61 link.none promptWait "requesting system info"
  let identity ← check (identityOf link.family info)
  let guid ← link.ask 0x67 link.none promptWait "requesting GUID"
  let raw ← check (guid.bytes 0)
  progress .identify 1 1
  return { identity with serials := Serial.ofBytes raw }

def timeOf (p : ParameterList) : Except ProtocolError DateTime := do
  let year ← p.word 0
  let month ← p.byte 1
  let day ← p.byte 2
  let hour ← p.byte 3
  let minute ← p.byte 4
  let second ← p.byte 5
  let weekday ← p.byte 6
  let offset ← p.word 7
  let zone ← if 11 < p.values.length then p.text 11 else pure ""
  return { year, month, day, hour, minute, second, zone
           weekday := weekday &&& 7, offset := offset.toInt16 }

def readClock (link : Link) : Exchange RemoteError DateTime := do
  check (timeOf (← link.ask 0x70 link.none promptWait "reading the clock"))

def timeParameters (order : ByteOrder) (t : DateTime) :
    Except (Halt ProtocolError) ParameterWriter :=
  ParameterWriter.word { order } t.year
    >>= (·.byte t.month) >>= (·.byte t.day) >>= (·.byte t.hour) >>= (·.byte t.minute)
    >>= (·.byte t.second) >>= (·.byte t.weekday) >>= (·.word t.offset.toUInt16)
    >>= (·.text t.zone)

def setClock (link : Link) (t : DateTime) : Exchange RemoteError Unit := do
  let parameters ← checkHalt (timeParameters link.order t)
  let _ ← link.ask 0x71 parameters promptWait "setting the clock"
  progress .setClock 1 1

/-- Restarts a remote, which may leave the link before it has answered. -/
def restart (link : Link) (kind : Restart) : Exchange RemoteError Unit := do
  if kind ≠ .device then
    refuse (.invalidArgument
      s!"{kind.name} reset is not available on {link.family.name} remotes")
  match ← attempt (link.request 0x1B link.none restartWait) with
  | .ok _ => pure ()
  | .error cause => if cause.timedOut then pure () else fail cause

end UniversalRemote.Z
