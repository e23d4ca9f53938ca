import UniversalRemote.Chunk
import UniversalRemote.Classic.Packet
import UniversalRemote.Flash.Layout
import UniversalRemote.Sequence
/-!
# Flash memory of classic remotes

Flash is read and written in chunks. A chunk is read as numbered packets behind one command, and
written as blocks of a few fixed sizes; a response closes it in both directions.
-/

namespace UniversalRemote.Classic

open Exchange

/-- What a protocol version fixes about chunks and packets. -/
structure Framing where
  readSize : Nat
  writeSize : Nat
  /-- The number of payload bytes of a read packet, by its length code. -/
  payloads : List Nat
  /-- The length code of the largest block that is written, and behind it the sizes of all of them,
  largest first. -/
  blockTable : List Nat
  deriving DecidableEq, Repr

namespace Framing

/-- The framing of protocol version zero. -/
def early : Framing where
  readSize := 700
  writeSize := 749
  payloads := [0, 0, 1, 2, 3, 4, 5, 6, 7, 8, 9, 10, 11, 12, 13, 14]
  blockTable := [0x07, 7, 6, 5, 4, 3, 2, 1]

/-- The framing of all later protocol versions. -/
def current : Framing where
  readSize := 1024
  writeSize := 1024
  payloads := [0, 0, 1, 2, 3, 4, 5, 6, 14, 30, 62, 0, 0, 0, 0, 0]
  blockTable := [0x0A, 63, 31, 15, 7, 6, 5, 4, 3, 2, 1]

def ofProtocol (version : UInt8) : Framing :=
  if version = 0 then early else current

/-- The number of payload bytes that a read packet announces. -/
def payload (f : Framing) (code : UInt8) : Nat :=
  f.payloads.getD (lengthCode code).toNat 0

/-- Sizes with length codes that count down from the first. -/
def countDown : Nat → List Nat → List (UInt8 × Nat)
  | _, [] => []
  | code, size :: rest => (UInt8.ofNat code, size) :: countDown (code - 1) rest

/-- The sizes of written blocks with their length codes, largest first. -/
def blocks (f : Framing) : List (UInt8 × Nat) :=
  match f.blockTable with
  | [] => []
  | code :: sizes => countDown code sizes

end Framing

/-- The packets that carry a chunk: each holds the largest block that is still filled. -/
def blockReports (blocks : List (UInt8 × Nat)) (data : List UInt8) : List Report :=
  match h : blocks.find? fun (_, size) => 0 < size && size ≤ data.length with
  | none => []
  | some (code, size) =>
    ((0x40 ||| code) :: data.take size) :: blockReports blocks (data.drop size)
termination_by data.length
decreasing_by
  have := List.find?_some h
  simp at this ⊢
  omega

def sendAll : List Report → Exchange RemoteError Unit
  | [] => pure ()
  | report :: rest => do
    send report
    sendAll rest

/-- Receives the packets of a chunk of `length` bytes at `offset` up to the response that closes
it. `absorb` takes in the payloads with their places; `received` counts the bytes so far. -/
def receiveChunk (framing : Framing) (absorb : σ → Nat → List UInt8 → Exchange RemoteError σ)
    (offset length : Nat) : Nat → Sequence → Nat → σ → Exchange RemoteError σ
  | 0, _, _, _ => stalled
  | patience + 1, sequence, received, state => do
    let (code, body) ← receivePacket promptWait
    if kind code = done then
      if received = length then pure state
      else refuse (.lengthMismatch length received)
    else if kind code ≠ 0x60 then unexpected code "reading flash"
    else
      match body with
      | [] => refuse (.shortPacket 2 1)
      | number :: payload =>
        let sequence ← check (sequence.accept number)
        let size := framing.payload code
        if payload.length < size then
          refuse (.shortPacket (2 + size) (2 + payload.length))
        else if length < received + size then
          refuse (.lengthMismatch length (received + size))
        else
          let state ← absorb state (offset + received) (payload.take size)
          receiveChunk framing absorb offset length patience sequence (received + size) state

def flashSequence : Sequence :=
  Sequence.eightBit 0x01 0x11

/-- Reads `count` chunks of the `length` bytes at an address, from `offset` on. -/
def transferChunks (framing : Framing) (absorb : σ → Nat → List UInt8 → Exchange RemoteError σ)
    (stage : Stage) (patience : Nat) (address : UInt32) (length : Nat) :
    Nat → Nat → σ → Exchange RemoteError σ
  | 0, _, state => pure state
  | count + 1, offset, state => do
    let size := min (length - offset) framing.readSize
    let start ← ofChecked (checkedSum address (UInt32.ofNat offset))
    send (readCommand start size)
    let state ← receiveChunk framing absorb offset size patience flashSequence 0 state
    progress stage (offset + size) length
    transferChunks framing absorb stage patience address length count (offset + size) state

/-- Reads the `length` bytes at an address, and has their packets taken in by `absorb`. -/
def transfer (framing : Framing) (absorb : σ → Nat → List UInt8 → Exchange RemoteError σ)
    (stage : Stage) (patience : Nat) (address : UInt32) (length : Nat) (state : σ) :
    Exchange RemoteError σ :=
  let count := (length + framing.readSize - 1) / framing.readSize
  transferChunks framing absorb stage patience address length count 0 state

/-- Keeps a payload behind the earlier ones, newest first. -/
def keep (payloads : List (List UInt8)) (_ : Nat) (data : List UInt8) :
    Exchange RemoteError (List (List UInt8)) :=
  pure (data :: payloads)

def readFlash (framing : Framing) (patience : Nat) (address : UInt32) (length : Nat) :
    Exchange RemoteError (List UInt8) := do
  let payloads ← transfer framing keep .readFlash patience address length []
  return payloads.reverse.flatten

def firstDifference (a b : List UInt8) : Option Nat :=
  (a.zip b).findIdx? fun (x, y) => x != y

/-- Holds a payload against what is expected from its place on, and leaves what is expected behind
it. -/
def compare (address : UInt32) (expected : List UInt8) (place : Nat) (data : List UInt8) :
    Exchange RemoteError (List UInt8) := do
  match firstDifference data expected with
  | none => pure (expected.drop data.length)
  | some i =>
    let differing ← ofChecked (checkedSum address (UInt32.ofNat (place + i)))
    fail (.mismatch (.byte differing))

def compareFlash (framing : Framing) (patience : Nat) (address : UInt32) (expected : List UInt8) :
    Exchange RemoteError Unit := do
  discard <| transfer framing (compare address) .compareFlash patience address expected.length
    expected

/-- Writes chunks of `total` bytes to flash at an address, from `offset` on. -/
def writeChunks (framing : Framing) (address : UInt32) (total : Nat) :
    List (List UInt8) → Nat → Exchange RemoteError Unit
  | [], _ => pure ()
  | chunk :: rest, offset => do
    let start ← ofChecked (checkedSum address (UInt32.ofNat offset))
    send (writeCommand start chunk.length)
    sendAll (blockReports framing.blocks chunk)
    send writeDone
    let (code, _) ← receivePacket flashWait
    if kind code ≠ done then unexpected code "writing flash"
    progress .writeFlash (offset + chunk.length) total
    writeChunks framing address total rest (offset + chunk.length)

/-- Writes to flash at an address; the sectors must have been erased. -/
def writeFlash (framing : Framing) (address : UInt32) (data : List UInt8) :
    Exchange RemoteError Unit :=
  writeChunks framing address data.length (chunks framing.writeSize data) 0

/-- Erases sectors; `erased` of `total` have been erased before. -/
def eraseSectors (total : Nat) : List Sector → Nat → Exchange RemoteError Unit
  | [], _ => pure ()
  | sector :: rest, erased => do
    send (eraseCommand sector.first)
    let _ ← receivePacket flashWait
    progress .eraseFlash (erased + 1) total
    eraseSectors total rest (erased + 1)

/-- Erases the sectors of a layout that hold some of the `length` bytes at an address. -/
def eraseFlash (address length : UInt32) (layout : SectorLayout) : Exchange RemoteError Unit := do
  let sectors ← ofChecked (layout.overlapping address length)
  eraseSectors sectors.length sectors 0

end UniversalRemote.Classic
