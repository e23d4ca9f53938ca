/-!
# Architectures

The hardware generations of flash-based remotes and the memory map of each.
-/

namespace UniversalRemote

/-- Where an architecture keeps its firmware and its configuration, and how a configuration is
recognised. -/
structure MemoryMap where
  flashBase : UInt32
  firmwareBase : UInt32
  configBase : UInt32
  updateBase : UInt32
  /-- The number that begins every configuration, least significant byte first. -/
  cookie : UInt32
  /-- The number of bytes of the cookie. -/
  cookieSize : Nat
  /-- Where in a configuration its three-byte end address stands. -/
  endVector : Nat
  controller : String
  deriving DecidableEq, Repr

inductive Architecture where
  | a2
  | a3
  | a7
  | a8
  | a9
  | a10
  deriving DecidableEq, Repr

namespace Architecture

def all : List Architecture := [a2, a3, a7, a8, a9, a10]

def code : Architecture → UInt16
  | a2 => 2
  | a3 => 3
  | a7 => 7
  | a8 => 8
  | a9 => 9
  | a10 => 10

def ofCode? (code : UInt16) : Option Architecture :=
  all.find? (·.code == code)

/-- The memory map of an architecture. The last one's cookie occurs in no configuration. -/
def map : Architecture → MemoryMap
  | a2 => {
      flashBase := 0, firmwareBase := 0, configBase := 0x006000, updateBase := 0
      cookie := 0x03A5, cookieSize := 2, endVector := 2, controller := "PIC16LF877" }
  | a3 => {
      flashBase := 0, firmwareBase := 0x010000, configBase := 0x020000, updateBase := 0x020000
      cookie := 0x0369, cookieSize := 2, endVector := 2, controller := "PIC18LC801" }
  | a7 => {
      flashBase := 0, firmwareBase := 0x010000, configBase := 0x020000, updateBase := 0x020000
      cookie := 0x4D424D42, cookieSize := 4, endVector := 5, controller := "PIC18LC801" }
  | a8 => {
      flashBase := 0, firmwareBase := 0x010000, configBase := 0x020000, updateBase := 0x1D0000
      cookie := 0x50545054, cookieSize := 4, endVector := 4, controller := "PIC18LC801" }
  | a9 => {
      flashBase := 0x800000, firmwareBase := 0x810000, configBase := 0x820000
      updateBase := 0x810000
      cookie := 0x4D434841, cookieSize := 4, endVector := 4, controller := "PIC18LF4550" }
  | a10 => {
      flashBase := 0, firmwareBase := 0x010000, configBase := 0x020000, updateBase := 0
      cookie := 0x1, cookieSize := 4, endVector := 4, controller := "PIC18LC801" }

def updatesFirmware (a : Architecture) : Bool :=
  a == a8

theorem ofCode?_code (a : Architecture) : ofCode? a.code = some a := by
  cases a <;> rfl

end Architecture

end UniversalRemote
