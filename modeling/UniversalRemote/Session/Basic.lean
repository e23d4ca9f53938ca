import UniversalRemote.Remote
import UniversalRemote.Session.Error
import UniversalRemote.Session.Settings
/-!
# Sessions

A session is one connected remote with what has been learned about it. It keeps the remote's
identity from one operation to the next, until an operation makes it stale.
-/

namespace UniversalRemote

/-- One connected remote with what has been learned about it. -/
structure Session where
  settings : Settings
  remote : Remote
  /-- The identity that the remote was last known by. -/
  identity : Option Identity := none
  deriving DecidableEq, Repr

namespace Session

/-- What can be done in a session. The session goes on behind a failure. -/
abbrev Operation := ExceptT (Halt SessionError) (StateT Session Program)

namespace Operation

def fail (cause : SessionError) : Operation α :=
  throw (.failed cause)

/-- An exchange whose failures are read as failures of the session. -/
def perform (read : ε → SessionError) (x : Exchange ε α) : Operation α :=
  ExceptT.mk fun session => x.run.bind fun
    | .ok a => .done (.ok a, session)
    | .error halt => .done (.error (halt.map read), session)

def command (f : Remote → Exchange RemoteError α)
    (read : RemoteError → SessionError := .remote) : Operation α := do
  perform read (f (← get).remote)

def known (answer : Except ProtocolError α) : Operation α :=
  match answer with
  | .ok a => pure a
  | .error cause => fail (.unknownKind cause)

def ofChecked (value : Option α) : Operation α :=
  perform .remote (Exchange.ofChecked value)

def notify (event : Event) : Operation Unit :=
  perform .remote (Exchange.notify event)

def begin (stage : Stage) : Operation Unit :=
  notify (.stage stage)

def forget : Operation Unit :=
  modify ({ · with identity := none })

def family : Operation Family := do
  return (← get).remote.family

end Operation

open Operation

/-- Asks the remote for its identity, and keeps it. -/
def identify : Operation Identity := do
  begin .identify
  let session ← get
  let (answer, remote) ← session.remote.identify
  set { session with remote }
  match answer with
  | .ok identity =>
    set { session with remote, identity := some identity }
    return identity
  | .error halt => throw (halt.map (.during .identifying))

/-- The identity of the remote, which is asked for it only if it is not known. -/
def knownIdentity : Operation Identity := do
  match (← get).identity with
  | some identity => return identity
  | none => identify

def fetchFlashConfig : Operation (List UInt8) := do
  let identity ← knownIdentity
  if !identity.area.valid then fail .noConfiguration
  let map ← known identity.memoryMap
  begin .readFlash
  command (·.readFlash map.configBase identity.area.used.toNat)

def fetchConfig : Operation (List UInt8) := do
  let data ← match ← family with
    | .classic => fetchFlashConfig
    | .zHid | .zNet =>
      begin .fetchRegion
      command (·.fetchRegion .userConfig)
    | .mh =>
      begin .fetchFile
      command (·.fetchFile FileTransfer.configName)
  notify .complete
  return data

/-- Writes a configuration to flash: the stored one is marked as invalid, then its sectors are
erased and written, and read back if the settings ask for it. -/
def storeFlashConfig (data : List UInt8) : Operation Unit := do
  let identity ← knownIdentity
  let map ← known identity.memoryMap
  let layout ← known identity.sectorLayout
  let capacity := flooredDifference (← ofChecked layout.stop) map.configBase
  if capacity.toNat < data.length then fail (.tooLong data.length capacity)
  command (·.invalidateConfig)
  begin .eraseFlash
  command (·.eraseFlash map.configBase (UInt32.ofNat data.length) layout)
  begin .writeFlash
  command (·.writeFlash map.configBase data)
  if (← get).settings.verifies then
    begin .compareFlash
    command (·.compareFlash map.configBase data) (.during .verifying)

/-- Replaces the stored configuration, and forgets the identity, which tells of the old one. -/
def storeConfig (data : List UInt8) : Operation Unit := do
  if data.isEmpty then fail .emptyConfiguration
  match ← family with
  | .classic => storeFlashConfig data
  | _ => command (·.install (.ofConfig data)) (.during .updating)
  forget
  notify .complete

def fetchFirmware : Operation (List UInt8) := do
  if (← family) ≠ .classic then command (·.notOffered .readFlash)
  let identity ← knownIdentity
  let map ← known identity.memoryMap
  begin .readFlash
  let length := flooredDifference map.configBase map.firmwareBase
  let data ← command (·.readFlash map.firmwareBase length.toNat)
  notify .complete
  return data

def learn : Operation Signal := do
  begin .learnIr
  command (·.learn)

def readClock : Operation DateTime :=
  command (·.readClock)

/-- Sets the time that the remote keeps. Remotes that keep files are passed over: their clock cannot
be set. -/
def setClock (t : DateTime) : Operation Unit := do
  if (← family) ≠ .mh then
    begin .setClock
    command (·.setClock t)

/-- Restarts the remote, and forgets its identity. -/
def restart (kind : Restart) : Operation Unit := do
  begin .restart
  command (·.restart kind)
  forget

end Session

end UniversalRemote
