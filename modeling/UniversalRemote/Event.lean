/-!
# Events

What an operation tells its observer while it runs.
-/

namespace UniversalRemote

inductive LogLevel where
  | trace
  | debug
  | info
  | warn
  | error
  deriving DecidableEq, Repr

def LogLevel.name : LogLevel → String
  | trace => "TRACE"
  | debug => "DEBUG"
  | info => "INFO"
  | warn => "WARN"
  | error => "ERROR"

inductive Stage where
  | identify
  | readFlash
  | eraseFlash
  | writeFlash
  | compareFlash
  | fetchFile
  | storeFile
  | fetchRegion
  | learnIr
  | initializeUpdate
  | writeUpdate
  | finalizeUpdate
  | setClock
  | restart
  deriving DecidableEq, Repr

namespace Stage

def all : List Stage :=
  [identify, readFlash, eraseFlash, writeFlash, compareFlash, fetchFile, storeFile, fetchRegion,
    learnIr, initializeUpdate, writeUpdate, finalizeUpdate, setClock, restart]

def name : Stage → String
  | identify => "Identify"
  | readFlash => "Read Flash"
  | eraseFlash => "Erase Flash"
  | writeFlash => "Write Flash"
  | compareFlash => "Verify Flash"
  | fetchFile => "Read File"
  | storeFile => "Write File"
  | fetchRegion => "Read Region"
  | learnIr => "Learn IR"
  | initializeUpdate => "Initialize Update"
  | writeUpdate => "Write Update"
  | finalizeUpdate => "Finalize Update"
  | setClock => "Set Time"
  | restart => "Reset"

end Stage

inductive Direction where
  /-- From the host to the remote. -/
  | sent
  /-- From the remote to the host. -/
  | received
  deriving DecidableEq, Repr

def Direction.name : Direction → String
  | sent => "TX"
  | received => "RX"

/-- What an observer is told. -/
inductive Event where
  | connected (description : String)
  | stage (phase : Stage)
  | progress (phase : Stage) (current total : Nat)
  | log (level : LogLevel) (message : String)
  | packet (direction : Direction) (length : Nat) (data : Option (List UInt8))
  | complete
  deriving DecidableEq, Repr

end UniversalRemote
