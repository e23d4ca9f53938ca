import UniversalRemote.Link.Device
/-!
# Network peers

A scripted peer at the other end of a network link. It answers each request that it receives with
bytes, with silence, or by resetting the connection, and closes the connection when it has no
answer left. Bytes arrive as a stream: what one read does not take is there for the next one.
-/

namespace UniversalRemote

inductive PeerReply where
  | bytes (data : Report)
  | reset
  deriving DecidableEq, Repr

/-- The state of a peer and of the connection to it. -/
structure Peer where
  /-- The answers still to come. Behind them the peer closes the connection. -/
  replies : List PeerReply
  /-- What the peer has received, newest first. -/
  log : List Report := []
  /-- What has been sent and not yet read. -/
  unread : Report := []
  wasReset : Bool := false
  closed : Bool := false
  deriving DecidableEq, Repr

namespace Peer

/-- The most bytes that one write or read moves. -/
def size : Nat := 1600

/-- What the peer has received, oldest first. -/
def requests (p : Peer) : List Report :=
  p.log.reverse

/-- What becomes of a connection once the peer has taken a request. -/
def answer (p : Peer) : Peer :=
  match p.replies with
  | .bytes data :: rest => { p with replies := rest, unread := p.unread ++ data }
  | .reset :: rest => { p with replies := rest, wasReset := true }
  | [] => { p with closed := true }

def write (request : Report) (p : Peer) : Except LinkError Unit × Peer :=
  if size < request.length then (.error (.reportTooLarge request.length size), p)
  else (.ok (), answer { p with log := request :: p.log })

def read (milliseconds : Nat) (p : Peer) : Except LinkError Report × Peer :=
  if p.wasReset then (.error (.readFailed "Connection reset by peer (os error 104)"), p)
  else if !p.unread.isEmpty then (.ok (p.unread.take size), { p with unread := p.unread.drop size })
  else if p.closed then (.error .disconnected, p)
  else (.error (.timeout milliseconds), p)

def device : Device Peer := ⟨write, read⟩

end Peer

end UniversalRemote
