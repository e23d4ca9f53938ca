import UniversalRemote.Checksum
import UniversalRemote.Chunk
import UniversalRemote.Region
import UniversalRemote.Image
import UniversalRemote.Z.Channel
/-!
# Regions of Z remotes over reports

A region is read as stream packets of any size until the remote says that it is done or, where the
region has an end marker, until the marker is complete. An update is written in packets, and
finished only if the remote has the right checksum.
-/

namespace UniversalRemote.Z

open Exchange

/-- The end of the bytes before a chunk, where an end marker may have begun: at most three. -/
abbrev Carry := List UInt8

/-- The place in a chunk just behind the end marker, if the chunk completes it. -/
def Carry.markerStop (carry : Carry) (chunk : List UInt8) : Option Nat :=
  (UniversalRemote.markerStop (carry ++ chunk)).map (· - carry.length)

def Carry.next (carry : Carry) (chunk : List UInt8) : Carry :=
  let window := carry ++ chunk
  window.drop (window.length - (endMarker.length - 1))

/-- The number of bytes at which a region is given up. -/
def regionLimit : Nat := 0x01000000

/-- Reads the data of a region, behind the chunks received so far, newest first. Without a `carry`
the region has no end marker. -/
def receiveRegion : Nat → Stream → Option Carry → Nat → List (List UInt8) →
    Exchange RemoteError (List (List UInt8) × Stream)
  | 0, _, _, _, _ => stalled
  | patience + 1, stream, carry, received, past => do
    let (packet, stream) ← Channel.converse stream 0x48 [] promptWait
    if packet.command = some 0x49 then
      if carry.isSome then refuse (.endMarkerNotFound received)
      return (past, stream)
    let chunk ← packet.demand 0x48 "reading region data"
    match carry.bind (·.markerStop chunk) with
    | some stop => return (chunk.take stop :: past, stream)
    | none =>
      let received := received + chunk.length
      if regionLimit < received then refuse (.endMarkerNotFound regionLimit)
      progress .fetchRegion received 0
      receiveRegion patience stream (carry.map (·.next chunk)) received (chunk :: past)

def fetchRegion (patience : Nat) (region : Region) : Exchange RemoteError (List UInt8) := do
  let stream ← Channel.establish
  let stream ← Channel.carryOut stream 0x47 [region.code] "starting region read"
  let carry := if region.isMarked then some [] else none
  let (chunks, stream) ← receiveRegion patience stream carry 0 []
  Channel.close stream
  return chunks.reverse.flatten

def writeImage (total : Nat) : List (List UInt8) → Nat → Stream → Exchange RemoteError Stream
  | [], _, stream => pure stream
  | chunk :: rest, written, stream => do
    let stream ← Channel.carryOut stream 0x43 chunk "writing update data"
    let written := written + chunk.length
    progress .writeUpdate written total
    writeImage total rest written stream

/-- Holds the checksum that a remote reports against that of the image. -/
def compareChecksum (image : List UInt8) (actual : UInt16) : Exchange RemoteError Unit :=
  let expected := imageChecksum image
  if actual ≠ expected then fail (.mismatch (.checksum expected actual)) else pure ()

/-- Asks for the checksum of what has been written, and holds it against that of the image. -/
def confirmImage (stream : Stream) (region : UInt8) (image : List UInt8) :
    Exchange RemoteError Stream := do
  let (packet, stream) ← Channel.converse stream 0x45 [region] checksumWait
  let body ← packet.demand 0x45 "reading update checksum"
  if body.length < 2 then refuse (.shortPacket 2 body.length)
  compareChecksum image (ByteOrder.little.word16 body)
  return stream

/-- Finishes an update. The remote acknowledges the request first, and answers it behind another
acknowledgement. -/
def finishUpdate (stream : Stream) (region : UInt8) : Exchange RemoteError Stream := do
  let stream ← Channel.sendRequest stream 0x46 [region]
  let (_, stream) ← Channel.receivePacket stream promptWait
  let (packet, stream) ← Channel.acknowledgeAndWait stream
  let _ ← packet.demand 0x46 "finishing update"
  return stream

def installHid (image : Image) : Exchange RemoteError Unit := do
  if !image.region.isReplaceable then fail (.notOffered .zHid .installConfig)
  let region := image.region.code
  let length := image.data.length
  let stream ← Channel.establish
  let stream ← Channel.carryOut stream 0x41 [region] "starting update"
  let header := ByteOrder.little.bytes 4 length ++ [region]
  let stream ← Channel.carryOut stream 0x42 header "writing update header"
  progress .initializeUpdate 1 1
  let stream ← writeImage length (chunks Channel.payloadLimit image.data) 0 stream
  let stream ← Channel.carryOut stream 0x44 [region] "ending update data"
  let (_, stream) ← Channel.acknowledgeAndWait stream
  let (_, stream) ← Channel.acknowledgeAndWait stream
  let stream ← confirmImage stream region image.data
  let stream ← finishUpdate stream region
  progress .finalizeUpdate 1 1
  Channel.close stream

end UniversalRemote.Z
