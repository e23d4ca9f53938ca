import UniversalRemote.Architecture
import UniversalRemote.ByteOrder
import UniversalRemote.Error
import UniversalRemote.Flash.Chip
import UniversalRemote.Model
/-!
# Identity

What a remote says of itself: versions, geometry, the state of its configuration and its serial
numbers.
-/

namespace UniversalRemote

/-- The area that holds the configuration: whether it holds a valid one, how long that is, and how
long it may be. -/
structure ConfigArea where
  valid : Bool
  used : UInt32
  capacity : UInt32
  deriving DecidableEq, Repr

namespace ConfigArea

def unknown : ConfigArea := ⟨false, 0, 1⟩

/-- The state of the area, read off the bytes at its start. They must begin with the cookie of the
architecture; the end address that they hold counts from the flash base and points four bytes
before the end. -/
def ofHeader (map : MemoryMap) (kibibytes : UInt32) (header : List UInt8) : ConfigArea :=
  let offset := map.configBase - map.flashBase
  if header.length < max map.cookieSize (map.endVector + 3) then unknown
  else if UInt32.ofNat (ByteOrder.little.value (header.take map.cookieSize)) ≠ map.cookie then
    unknown
  else
    let stop := UInt32.ofNat (ByteOrder.little.value ((header.drop map.endVector).take 3))
    let size := kibibytes <<< 10
    ⟨true, stop - offset + 4, if offset ≤ size then size - offset else 0⟩

end ConfigArea

structure Identity where
  family : Family
  firmwareMajor : UInt16 := 0
  firmwareMinor : UInt16 := 0
  firmwareType : UInt8 := 0
  hardwareMajor : UInt8 := 0
  hardwareMinor : UInt8 := 0
  architectureCode : UInt16 := 0
  skin : UInt16 := 0
  flashDevice : UInt8 := 0
  flashManufacturer : UInt8 := 0
  protocol : UInt8 := 0
  serials : List String := []
  area : ConfigArea := ConfigArea.unknown
  /-- The vendor and product numbers, where the remote itself reports them. -/
  usbIds : Option (UInt16 × UInt16) := none
  deriving DecidableEq, Repr

namespace Identity

def architecture (i : Identity) : Option Architecture :=
  Architecture.ofCode? i.architectureCode

def memoryMap (i : Identity) : Except ProtocolError MemoryMap :=
  match i.architecture with
  | some a => .ok a.map
  | none => .error (.invalidArgument s!"unknown architecture {i.architectureCode.toNat}")

def chip (i : Identity) : Option FlashChip :=
  FlashChip.ofIds? i.flashManufacturer i.flashDevice

def flashText (i : Identity) : String :=
  s!"{Hex.text 2 i.flashManufacturer.toNat}:{Hex.text 2 i.flashDevice.toNat}"

def sectorLayout (i : Identity) : Except ProtocolError SectorLayout := do
  let map ← i.memoryMap
  match i.chip with
  | some chip => .ok (chip.layout map.flashBase)
  | none => .error (.invalidArgument s!"unknown flash part {i.flashText}")

def model (i : Identity) : Model :=
  Model.ofSkin i.skin

def architectureText (i : Identity) : String :=
  match i.architecture with
  | some a => s!"Architecture: {a.code.toNat} ({a.map.controller})"
  | none => s!"Architecture: {i.architectureCode.toNat} (unknown)"

def chipText (i : Identity) : String :=
  match i.chip with
  | some chip => s!"Flash: {i.flashText} {chip.name} ({chip.kibibytes.toNat} KiB)"
  | none => s!"Flash: {i.flashText} (unknown)"

def areaText (i : Identity) : String :=
  if i.area.valid then
    let percent := i.area.used.toNat * 100 / max i.area.capacity.toNat 1
    let used := i.area.used.toNat / 1024
    let capacity := i.area.capacity.toNat / 1024
    s!"Config Flash Used: {percent}% ({used} of {capacity} KiB)"
  else "Config Flash Used: no valid config"

/-- The lines on the serial numbers, which are counted from one. -/
def serialLines (serials : List String) : List String :=
  serials.mapIdx fun i serial => s!"Serial Number {i + 1}: {serial}"

def lines (i : Identity) : List String :=
  [s!"Model: {i.model.text}",
    s!"Protocol family: {i.family.name}",
    s!"Skin: {i.skin.toNat}",
    s!"Firmware Version: {i.firmwareMajor.toNat}.{i.firmwareMinor.toNat}",
    s!"Firmware Type: {i.firmwareType.toNat}",
    s!"Hardware Version: {i.hardwareMajor.toNat}.{i.hardwareMinor.toNat}",
    i.architectureText,
    i.chipText,
    s!"Protocol: {i.protocol.toNat}"]
  ++ (match i.usbIds with
    | some (vendor, product) => [s!"USB: {Hex.text 4 vendor.toNat}:{Hex.text 4 product.toNat}"]
    | none => [])
  ++ serialLines i.serials ++ [i.areaText]

def text (i : Identity) : String :=
  "\n".intercalate i.lines

end Identity

end UniversalRemote
