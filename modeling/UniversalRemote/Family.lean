/-!
# Remote families and what they can do

A family is the protocol that a remote speaks; a capability is an operation that a family may or
may not offer.
-/

namespace UniversalRemote

/-- The protocol that a remote speaks. -/
inductive Family where
  /-- Flash memory behind fixed four-bit commands. -/
  | classic
  /-- Z requests over human-interface reports, with datagrams and streams. -/
  | zHid
  /-- Z requests over a network socket. -/
  | zNet
  /-- Files moved in sequenced packets. -/
  | mh
  deriving DecidableEq, Repr

namespace Family

def name : Family → String
  | classic => "classic"
  | zHid => "z-hid"
  | zNet => "z-net"
  | mh => "mh"

/-- The family that a text names, in any case; the hyphen may be left out. -/
def ofText? (text : String) : Option Family :=
  match text.map Char.toLower with
  | "classic" => some classic
  | "z-hid" | "zhid" => some zHid
  | "z-net" | "znet" => some zNet
  | "mh" => some mh
  | _ => none

/-- The family that a text spells exactly. -/
def ofName? (text : String) : Option Family :=
  [classic, zHid, zNet, mh].find? (·.name == text)

def unknownMessage (text : String) : String :=
  let lower := text.map Char.toLower
  s!"unknown remote family '{lower}'"

end Family

inductive Capability where
  | identify
  | restart
  | readFlash
  | writeFlash
  | eraseFlash
  | invalidateConfig
  | readClock
  | setClock
  | learnIr
  | fetchFile
  | storeFile
  | fetchRegion
  | installConfig
  deriving DecidableEq, Repr

namespace Capability

def all : List Capability :=
  [identify, restart, readFlash, writeFlash, eraseFlash, invalidateConfig, readClock, setClock,
    learnIr, fetchFile, storeFile, fetchRegion, installConfig]

def name : Capability → String
  | identify => "get identity"
  | restart => "reset"
  | readFlash => "read flash"
  | writeFlash => "write flash"
  | eraseFlash => "erase flash"
  | invalidateConfig => "invalidate flash"
  | readClock => "get time"
  | setClock => "set time"
  | learnIr => "learn IR"
  | fetchFile => "read file"
  | storeFile => "write file"
  | fetchRegion => "read region"
  | installConfig => "update config"

end Capability

def commonVendor : UInt16 := 0x046D

def products : List (UInt16 × Family) :=
  [(0xC110, .classic), (0xC111, .classic), (0xC112, .classic), (0xC11F, .zNet), (0xC121, .zHid),
    (0xC122, .zHid), (0xC124, .mh), (0xC125, .mh), (0xC126, .mh), (0xC129, .mh)]

end UniversalRemote
