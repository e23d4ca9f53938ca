import UniversalRemote.Network.Address
import UniversalRemote.Session.Basic
/-!
# Opening sessions

Where the remote of a session is to be found, and how the session begins.
-/

namespace UniversalRemote

inductive Endpoint where
  | network (address : Address)
  /-- On the bus, as a certain vendor and product or as any supported one. -/
  | bus (ids : Option (UInt16 × UInt16))
  deriving DecidableEq, Repr

/-- Where the remote of some settings is to be found. Only a family that is reached over the network
says that it is there. -/
def Settings.endpoint (s : Settings) : Except SessionError Endpoint :=
  if s.family = some .zNet then
    match Address.ofText? s.address with
    | some address => .ok (.network address)
    | none => .error (.badAddress s.address)
  else
    match s.vendorId, s.productId with
    | some vendor, some product => .ok (.bus (some (vendor, product)))
    | none, none => .ok (.bus none)
    | _, _ => .error .partialIds

def notOnBus (ids : Option (UInt16 × UInt16)) : LinkError :=
  let (vendor, product) := ids.getD (commonVendor, 0)
  .deviceNotFound vendor product

/-- The address of the remote of some settings. The bus is out of reach, so a remote on it is
reported as missing. -/
def Settings.peer (s : Settings) : Except SessionError Address := do
  match ← s.endpoint with
  | .network address => return address
  | .bus ids => throw (.opening (notOnBus ids))

namespace Session

/-- The session with a remote on the network. Such a remote announces all that it sends, so that no
patience is needed. -/
def onNetwork (settings : Settings) : Session :=
  { settings, remote := { family := .zNet, patience := 0 } }

def announce (address : Address) : Operation Unit :=
  Operation.notify (.connected s!"network remote at {address.text}")

end Session

end UniversalRemote
