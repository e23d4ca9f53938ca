/-!
# Regions

The memory regions of Z remotes, and the marker that ends a stored user configuration.
-/

namespace UniversalRemote

inductive Region where
  | bootloader
  | safemode
  | application
  | embeddingConfig
  | userConfig
  | picRegion
  | spare1
  | zWave
  | blasterConfig
  | stateVariable
  | logging
  | spare2
  | spare3
  | spare4
  | spare5
  | spare6
  deriving DecidableEq, Repr

namespace Region

def all : List Region :=
  [bootloader, safemode, application, embeddingConfig, userConfig, picRegion, spare1, zWave,
    blasterConfig, stateVariable, logging, spare2, spare3, spare4, spare5, spare6]

def ofCode? (code : Nat) : Option Region :=
  all[code]?

def code : Region → UInt8
  | bootloader => 0
  | safemode => 1
  | application => 2
  | embeddingConfig => 3
  | userConfig => 4
  | picRegion => 5
  | spare1 => 6
  | zWave => 7
  | blasterConfig => 8
  | stateVariable => 9
  | logging => 10
  | spare2 => 11
  | spare3 => 12
  | spare4 => 13
  | spare5 => 14
  | spare6 => 15

def name : Region → String
  | bootloader => "Bootloader"
  | safemode => "Safemode"
  | application => "Application"
  | embeddingConfig => "EmbeddingConfig"
  | userConfig => "UserConfig"
  | picRegion => "PicRegion"
  | spare1 => "Spare1"
  | zWave => "ZWave"
  | blasterConfig => "BlasterConfig"
  | stateVariable => "StateVariable"
  | logging => "Logging"
  | spare2 => "Spare2"
  | spare3 => "Spare3"
  | spare4 => "Spare4"
  | spare5 => "Spare5"
  | spare6 => "Spare6"

/-- Whether the contents of a region end with the end marker. -/
def isMarked (r : Region) : Bool :=
  r == userConfig

/-- Whether a region may be written: safe mode is never replaced. -/
def isReplaceable (r : Region) : Bool :=
  r != safemode

theorem ofCode?_code (r : Region) : ofCode? r.code.toNat = some r := by
  cases r <;> rfl

end Region

/-- The bytes that end a stored user configuration. -/
def endMarker : List UInt8 :=
  [0x44, 0x4B, 0x44, 0x4B]

/-- The place just behind the first end marker, where `skipped` bytes go before the given ones. -/
def markerStopFrom : Nat → List UInt8 → Option Nat
  | _, [] => none
  | skipped, b :: rest =>
    if endMarker.isPrefixOf (b :: rest) then some (skipped + endMarker.length)
    else markerStopFrom (skipped + 1) rest

def markerStop (bytes : List UInt8) : Option Nat :=
  markerStopFrom 0 bytes

end UniversalRemote
