import UniversalRemote.Classic.Basic
import UniversalRemote.CommandLine.Word
/-!
# Invocations

What a command line asks for: settings that go before the file of settings, and one command.
-/

namespace UniversalRemote.CommandLine

inductive Command where
  | identify
  | dumpConfig (output : String)
  | storeConfig (input : String)
  | fetchFirmware (output : String)
  | learnIr (output : Option String)
  | readClock
  /-- Sets the time to one given as text, or else to the host's. -/
  | setClock (time : Option String)
  | restart (kind : Restart)
  deriving DecidableEq, Repr

structure Invocation where
  /-- The file of settings. -/
  settings : Option String := none
  family : Option Family := none
  address : Option String := none
  /-- Whether flash is left unread after it was written. -/
  skipsVerify : Bool := false
  verbose : Bool := false
  command : Command
  deriving DecidableEq, Repr

/-- A path, which is not empty. -/
def path? (text : String) : Option String :=
  if text.isEmpty then none else some text

def restart? : String → Option Restart
  | "usb" => some .usb
  | "device" => some .device
  | "disconnect" => some .deviceDisconnect
  | "test-finish" => some .testFinish
  | _ => none

/-- The value of an option that may be left out, read from its text. -/
def optionally (read? : String → Option α) : Option String → Option (Option α)
  | none => some none
  | some text => (read? text).map some

namespace Command

def switches (name : String) : List Switch :=
  if name = "learn-ir" then [{ name := "output", letter := some 'o', takesValue := true }] else []

def ofParts? (name : String) (p : Parts) : Option Command :=
  match name, p.operands with
  | "identify", [] => some identify
  | "dump-config", [output] => (path? output).map dumpConfig
  | "write-config", [input] => (path? input).map storeConfig
  | "dump-firmware", [output] => (path? output).map fetchFirmware
  | "learn-ir", [] => (optionally path? (p.value? "output")).map learnIr
  | "get-time", [] => some readClock
  | "set-time", [] => some (setClock none)
  | "set-time", [time] => some (setClock (some time))
  | "reset", [] => some (restart .device)
  | "reset", [kind] => (restart? kind).map restart
  | _, _ => none

def ofWords? (name : String) (words : List String) : Option Command := do
  let (parts, _) ← Parts.ofWords? (switches name) false words
  if parts.repeats then none
  ofParts? name parts

end Command

namespace Invocation

def switches : List Switch :=
  [{ name := "config", letter := some 'c', takesValue := true },
    { name := "family", takesValue := true },
    { name := "address", takesValue := true },
    { name := "no-verify" },
    { name := "verbose", letter := some 'v' }]

def ofWords? (words : List String) : Option Invocation := do
  let (parts, rest) ← Parts.ofWords? switches true words
  if parts.repeats then none
  match parts.operands with
  | [name] =>
    return {
      settings := ← optionally path? (parts.value? "config")
      family := ← optionally Family.ofText? (parts.value? "family")
      address := parts.value? "address"
      skipsVerify := parts.has "no-verify"
      verbose := parts.has "verbose"
      command := ← Command.ofWords? name rest }
  | _ => none

end Invocation

end UniversalRemote.CommandLine
