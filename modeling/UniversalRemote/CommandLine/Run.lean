import UniversalRemote.CommandLine.Error
import UniversalRemote.CommandLine.Invocation
import UniversalRemote.DateTime.Scan
import UniversalRemote.Link.Observed
import UniversalRemote.Session.Opening
/-!
# Running commands

A command runs on a host, which has files, a terminal, a clock and links to remotes. Settings are
read first and the remote is opened before the command itself is looked at, so that a command
without a remote fails for want of one.
-/

namespace UniversalRemote.CommandLine

/-- What a command needs of its surroundings. -/
structure Host (m : Type → Type) where
  /-- The contents of a file, if it can be read. -/
  load : String → m (Option (List UInt8))
  /-- Replaces the contents of a file, and tells whether that was possible. -/
  save : String → List UInt8 → m Bool
  /-- Writes to the terminal. -/
  print : String → m Unit
  /-- The local time. -/
  now : m DateTime
  /-- Opens the link to a peer on the network. -/
  connect : Address → m (Except LinkError Unit)
  /-- Runs a program on the link. -/
  perform : {α : Type} → Program α → m α
  /-- The format of the file of settings. -/
  format : Toml.Format := Toml.format

abbrev Job (m : Type → Type) := ExceptT (Halt CommandError) (StateT Session m)

variable {m : Type → Type} [Monad m]

def fail {n : Type → Type} [Monad n] (cause : CommandError) : ExceptT (Halt CommandError) n α :=
  throw (.failed cause)

namespace Job

def call (x : m α) : Job m α :=
  ExceptT.lift (StateT.lift x)

/-- What the session does. Its reports are told to the observer too. -/
def operate (host : Host m) (x : Session.Operation α) : Job m α :=
  ExceptT.mk fun session => do
    let (outcome, session) ← host.perform (x.run.run session).observed
    return (outcome.mapError (·.map .session), session)

def save (host : Host m) (path : String) (data : List UInt8) : Job m Unit := do
  if !(← call (host.save path data)) then fail (.save path)

def print (host : Host m) (line : String) : Job m Unit :=
  call (host.print (line ++ "\n"))

end Job

namespace Command

open Job

def run (host : Host m) : Command → Job m Unit
  | identify => do
    print host (← operate host Session.identify).text
  | dumpConfig output => do
    save host output (← operate host Session.fetchConfig)
  | storeConfig input => do
    match ← call (host.load input) with
    | some data => operate host (Session.storeConfig data)
    | none => fail (.load input)
  | fetchFirmware output => do
    save host output (← operate host Session.fetchFirmware)
  | learnIr output => do
    let learned := (← operate host Session.learn).learnText
    print host learned
    if let some path := output then save host path (Utf8.encode learned)
  | readClock => do
    print host (← operate host Session.readClock).text
  | setClock (some text) => do
    match DateTime.ofText? text with
    | some time => operate host (Session.setClock time)
    | none => fail (.time text)
  | setClock none => do
    operate host (Session.setClock (← call host.now))
  | restart kind => operate host (Session.restart kind)

end Command

namespace Invocation

def storedSettings (host : Host m) (i : Invocation) : ExceptT (Halt CommandError) m Settings := do
  match i.settings with
  | none => return {}
  | some path =>
    match (← host.load path).bind (Settings.load? host.format) with
    | some settings => return settings
    | none => fail (.settings path)

def override (i : Invocation) (s : Settings) : Settings :=
  { s with
    family := i.family <|> s.family
    address := i.address.getD s.address
    verifies := s.verifies && !i.skipsVerify }

def openLink (host : Host m) (settings : Settings) : ExceptT (Halt CommandError) m Address := do
  match settings.peer with
  | .error cause => fail (.session cause)
  | .ok address =>
    match ← host.connect address with
    | .ok () => return address
    | .error cause => fail (.session (.opening cause))

def run (host : Host m) (i : Invocation) : m (Except (Halt CommandError) Unit) :=
  ExceptT.run do
    let settings ← i.storedSettings host
    let settings := i.override settings
    let address ← openLink host settings
    let job : Job m Unit := do
      Job.operate host (Session.announce address)
      i.command.run host
    ExceptT.mk (return (← job.run.run (.onNetwork settings)).1)

end Invocation

end UniversalRemote.CommandLine
