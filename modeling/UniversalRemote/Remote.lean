import UniversalRemote.FileTransfer.Basic
import UniversalRemote.Z.Net
/-!
# Remotes

One remote of any family. What its family does not offer is refused before any traffic.
-/

namespace UniversalRemote

/-- The host's side of a remote: its family, the number of reports that the host takes for one
transfer, and what a classic remote has told of how it is driven. -/
structure Remote where
  family : Family
  patience : Nat
  geometry : Option Geometry := none
  deriving DecidableEq, Repr

namespace Remote

open Exchange

def classic (r : Remote) : Classic :=
  { patience := r.patience, geometry := r.geometry }

def notOffered (r : Remote) (capability : Capability) : Exchange RemoteError α :=
  fail (.notOffered r.family capability)

def capabilities (r : Remote) : List Capability :=
  match r.family with
  | .classic => Classic.capabilities
  | .zHid | .zNet => Z.capabilities
  | .mh => FileTransfer.capabilities

def offers (r : Remote) (capability : Capability) : Bool :=
  r.capabilities.contains capability

/-- Asks the remote for its identity; a classic remote is known from then on. -/
def identify (r : Remote) : Program (Except (Halt RemoteError) Identity × Remote) :=
  let plain (x : Exchange RemoteError Identity) :
      Program (Except (Halt RemoteError) Identity × Remote) := do
    return (← x.run, r)
  match r.family with
  | .classic => do
    let (answer, c) ← r.classic.identify
    return (answer, { r with geometry := c.geometry })
  | .zHid => plain (Z.identify Z.hidLink)
  | .zNet => plain (Z.identify Z.netLink)
  | .mh => plain FileTransfer.identify

def restart (r : Remote) (kind : Restart) : Exchange RemoteError Unit :=
  match r.family with
  | .classic => Classic.restart kind
  | .zHid => Z.restart Z.hidLink kind
  | .zNet => Z.restart Z.netLink kind
  | .mh => FileTransfer.restart

def readFlash (r : Remote) (address : UInt32) (length : Nat) : Exchange RemoteError (List UInt8) :=
  match r.family with
  | .classic => r.classic.read address length
  | _ => r.notOffered .readFlash

def compareFlash (r : Remote) (address : UInt32) (expected : List UInt8) :
    Exchange RemoteError Unit :=
  match r.family with
  | .classic => r.classic.verify address expected
  | _ => r.notOffered .readFlash

def writeFlash (r : Remote) (address : UInt32) (data : List UInt8) : Exchange RemoteError Unit :=
  match r.family with
  | .classic => r.classic.write address data
  | _ => r.notOffered .writeFlash

def eraseFlash (r : Remote) (address length : UInt32) (layout : SectorLayout) :
    Exchange RemoteError Unit :=
  match r.family with
  | .classic => Classic.eraseFlash address length layout
  | _ => r.notOffered .eraseFlash

def invalidateConfig (r : Remote) : Exchange RemoteError Unit :=
  match r.family with
  | .classic => Classic.invalidateConfig
  | _ => r.notOffered .invalidateConfig

def readClock (r : Remote) : Exchange RemoteError DateTime :=
  match r.family with
  | .classic => r.classic.readClock
  | .zHid => Z.readClock Z.hidLink
  | .zNet => Z.readClock Z.netLink
  | .mh => r.notOffered .readClock

def setClock (r : Remote) (t : DateTime) : Exchange RemoteError Unit :=
  match r.family with
  | .classic => r.classic.setClock t
  | .zHid => Z.setClock Z.hidLink t
  | .zNet => Z.setClock Z.netLink t
  | .mh => r.notOffered .setClock

def learn (r : Remote) : Exchange RemoteError Signal :=
  match r.family with
  | .classic => r.classic.learn
  | .mh => FileTransfer.learn r.patience
  | _ => r.notOffered .learnIr

def fetchFile (r : Remote) (name : String) : Exchange RemoteError (List UInt8) :=
  match r.family with
  | .mh => FileTransfer.fetchFile name
  | _ => r.notOffered .fetchFile

def storeFile (r : Remote) (name : String) (data : List UInt8) : Exchange RemoteError Unit :=
  match r.family with
  | .mh => FileTransfer.store name data
  | _ => r.notOffered .storeFile

def fetchRegion (r : Remote) (region : Region) : Exchange RemoteError (List UInt8) :=
  match r.family with
  | .zHid => Z.fetchRegion r.patience region
  | .zNet => Z.fetchNetRegion region
  | _ => r.notOffered .fetchRegion

def install (r : Remote) (image : Image) : Exchange RemoteError Unit :=
  match r.family with
  | .zHid => Z.installHid image
  | .zNet => Z.installNet image
  | .mh => FileTransfer.install image
  | .classic => r.notOffered .installConfig

/-! ## Remotes of the classic family -/

section Classic

variable {r : Remote} (h : r.family = .classic)
include h

theorem readFlash_classic (address : UInt32) (length : Nat) :
    r.readFlash address length = r.classic.read address length := by
  simp only [readFlash, h]

theorem compareFlash_classic (address : UInt32) (expected : List UInt8) :
    r.compareFlash address expected = r.classic.verify address expected := by
  simp only [compareFlash, h]

theorem writeFlash_classic (address : UInt32) (data : List UInt8) :
    r.writeFlash address data = r.classic.write address data := by
  simp only [writeFlash, h]

theorem eraseFlash_classic (address length : UInt32) (layout : SectorLayout) :
    r.eraseFlash address length layout = Classic.eraseFlash address length layout := by
  simp only [eraseFlash, h]

theorem invalidateConfig_classic : r.invalidateConfig = Classic.invalidateConfig := by
  simp only [invalidateConfig, h]

end Classic

end Remote

end UniversalRemote
