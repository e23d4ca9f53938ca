import Std.Async.TCP
import Std.Async.Timer
import UniversalRemote.CommandLine.Run
import UniversalRemote.DateTime.Epoch
import UniversalRemote.Event.Log
import UniversalRemote.Link.Peer
/-!
# The program

The command line on a real host. Log lines and error texts go to standard error.
-/

namespace UniversalRemote.CommandLine

open Std.Async Std.Net

def socketAddress : Address → SocketAddress
  | .v4 host port => .v4 ⟨IPv4Addr.ofParts host.a host.b host.c host.d, port⟩
  | .v6 host _ port => .v6 ⟨⟨host.groups⟩, port⟩

/-- The outcome of an action whose errors are failures of the link. -/
def settle (failure : String → LinkError) (action : IO α) : IO (Except LinkError α) := do
  try
    return .ok (← action)
  catch e =>
    return .error (failure (toString e))

def sendRequest (socket : TCP.Socket.Client) (request : Report) :
    IO (Except LinkError Unit) := do
  if Peer.size < request.length then
    return .error (.reportTooLarge request.length Peer.size)
  settle .writeFailed (socket.send (ByteArray.mk request.toArray)).block

/-- Waits for what a peer sends: nothing in time, the end of the connection, or some bytes. -/
def awaitBytes (socket : TCP.Socket.Client) (milliseconds : Nat) :
    Async (Option (Option ByteArray)) := do
  let timer ← Selector.sleep (.ofNat milliseconds)
  Selectable.one #[
    .case (socket.recvSelector (UInt64.ofNat Peer.size)) fun bytes => return some bytes,
    .case timer fun () => return none]

def receiveReport (socket : TCP.Socket.Client) (milliseconds : Nat) :
    IO (Except LinkError Report) := do
  match ← settle .readFailed (awaitBytes socket milliseconds).block with
  | .ok (some (some bytes)) => return .ok bytes.toList
  | .ok (some none) => return .error .disconnected
  | .ok none => return .error (.timeout milliseconds)
  | .error cause => return .error cause

def isShown (verbose : Bool) : LogLevel → Bool
  | .trace => false
  | .debug => verbose
  | _ => true

def logEvent (verbose : Bool) (event : Event) : IO Unit := do
  match event.logLine? with
  | some line =>
    if isShown verbose line.level then
      let fields := line.fields.map fun (name, value) => s!" {name}={value}"
      IO.eprintln s!"{line.level.name} {line.message}{String.join fields}"
  | none => return ()

def performOn (verbose : Bool) (socket : TCP.Socket.Client) : Program α → IO α
  | .done result => return result
  | .write report next => do
    performOn verbose socket (next (← sendRequest socket report))
  | .read milliseconds next => do
    performOn verbose socket (next (← receiveReport socket milliseconds))
  | .notify event next => do
    logEvent verbose event
    performOn verbose socket next

def loadBytes (path : String) : IO (Option (List UInt8)) := do
  try
    return some (← IO.FS.readBinFile path).toList
  catch _ =>
    return none

def saveBytes (path : String) (data : List UInt8) : IO Bool := do
  try
    IO.FS.writeBinFile path (ByteArray.mk data.toArray)
    return true
  catch _ =>
    return false

def openSocket (socket : TCP.Socket.Client) (address : Address) :
    IO (Except LinkError Unit) :=
  settle (fun reason => .openFailed s!"{address.text}: {reason}") do
    (socket.connect (socketAddress address)).block
    socket.noDelay

/-- The machine that the program runs on, which talks over one socket. -/
def machine (verbose : Bool) (socket : TCP.Socket.Client) : Host IO where
  load := loadBytes
  save := saveBytes
  print := IO.print
  now := return .ofSeconds (← Std.Time.Timestamp.now).toSecondsSinceUnixEpoch.val
  connect := openSocket socket
  perform := performOn verbose socket

def haltText : Halt CommandError → String
  | .failed cause => s!"Error: {cause.message}"
  | .overflow => "Error: arithmetic overflow"
  | .stalled => "Error: the remote does not come to an end"

end UniversalRemote.CommandLine

open UniversalRemote.CommandLine in
def main (words : List String) : IO UInt32 := do
  match Invocation.ofWords? words with
  | none =>
    IO.eprintln "usage: universal-remote [OPTIONS] COMMAND"
    return 2
  | some invocation =>
    let socket ← Std.Async.TCP.Socket.Client.mk
    match ← invocation.run (machine invocation.verbose socket) with
    | .ok () => return 0
    | .error halt =>
      IO.eprintln (haltText halt)
      return 1
