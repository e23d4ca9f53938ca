import UniversalRemote.Flash.Layout
/-!
# Flash chips

The flash chips found in remotes, known by manufacturer and device number, with their sizes and
sector boundaries.
-/

namespace UniversalRemote

inductive FlashChip where
  | am29lv008b
  | am29lv160bb
  | am29lv116db
  | sa25f020
  | s25fl040
  deriving DecidableEq, Repr

namespace FlashChip

def ofIds? (manufacturer device : UInt8) : Option FlashChip :=
  match manufacturer.toNat, device.toNat with
  | 0x01, 0x37 => some am29lv008b
  | 0x01, 0x49 => some am29lv160bb
  | 0x01, 0x4C => some am29lv116db
  | 0xFF, 0x11 => some sa25f020
  | 0xFF, 0x12 => some s25fl040
  | _, _ => none

/-- The size of a chip in units of 1024 bytes. -/
def kibibytes : FlashChip → UInt32
  | am29lv008b => 1024
  | am29lv160bb | am29lv116db => 2048
  | sa25f020 => 256
  | s25fl040 => 512

def name : FlashChip → String
  | am29lv008b => "AMD Am29LV008B"
  | am29lv160bb => "AMD Am29LV160BB"
  | am29lv116db => "AMD Am29LV116DB"
  | sa25f020 => "25F020"
  | s25fl040 => "25F040"

/-- The boundaries of `count` sectors of 64 KiB each. -/
def uniform (count : Nat) : List UInt32 :=
  (List.range count).map fun i => UInt32.ofNat ((i + 1) * 0x10000)

/-- The ends of a chip's sectors, counted from its base. The larger chips cut their first 64 KiB
into smaller sectors. -/
def boundaries : FlashChip → List UInt32
  | am29lv008b => [0x4000, 0x6000, 0x8000] ++ uniform 16
  | am29lv160bb | am29lv116db => [0x4000, 0x6000, 0x8000] ++ uniform 32
  | sa25f020 => uniform 4
  | s25fl040 => uniform 8

def layout (chip : FlashChip) (base : UInt32) : SectorLayout where
  base
  boundaries := 0 :: chip.boundaries

end FlashChip

end UniversalRemote
