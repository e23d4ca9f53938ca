import UniversalRemote.Classic.Packet
import UniversalRemote.DateTime
import UniversalRemote.Word
/-!
# State memory and clocks of classic remotes

Besides flash, a remote has small memories of bytes or words that are read and written one by one.
The clock is kept in one of them: in bytes on earlier architectures, in words on later ones.
-/

namespace UniversalRemote.Classic

open Exchange

/-- The memory that holds the serial number of the earliest architecture. -/
def eepromSpace : UInt8 := 0x00

/-- The memory that holds the clock. -/
def stateSpace : UInt8 := 0x01

def readBytes (space : UInt8) : UInt8 → Nat → Exchange RemoteError (List UInt8)
  | _, 0 => pure []
  | address, count + 1 => do
    send [0xB2, space, address]
    let (code, body) ← receivePacket promptWait
    match body with
    | answered :: value :: _ =>
      if code ≠ 0xC2 ∨ answered ≠ space then unexpected code "reading misc byte"
      else return value :: (← readBytes space (address + 1) count)
    | _ => unexpected code "reading misc byte"

def readWords (space : UInt8) : UInt16 → Nat → Exchange RemoteError (List UInt16)
  | _, 0 => pure []
  | address, count + 1 => do
    send (0xB3 :: space :: ByteOrder.big.bytes16 address)
    let (code, body) ← receivePacket promptWait
    match body with
    | answered :: high :: low :: _ =>
      if kind code ≠ 0xC0 ∨ answered ≠ space then unexpected code "reading misc word"
      else return ByteOrder.big.word16 [high, low] :: (← readWords space (address + 1) count)
    | _ => unexpected code "reading misc word"

/-- Writes to a memory with a command, and waits until the remote says that it is done with that
memory. -/
def writeSpace (code space : UInt8) (body : List UInt8) : Exchange RemoteError Unit := do
  send (code :: space :: body)
  let (answer, body) ← receivePacket promptWait
  match body with
  | answered :: _ =>
    if kind answer ≠ done ∨ answered ≠ space then unexpected answer "writing misc"
  | [] => unexpected answer "writing misc"

def writeBytes (space : UInt8) : UInt8 → List UInt8 → Exchange RemoteError Unit
  | _, [] => pure ()
  | address, value :: rest => do
    writeSpace 0xA3 space [address, value]
    writeBytes space (address + 1) rest

def writeWords (space : UInt8) : UInt16 → List UInt16 → Exchange RemoteError Unit
  | _, [] => pure ()
  | address, value :: rest => do
    writeSpace 0xA5 space (ByteOrder.big.bytes16 address ++ ByteOrder.big.bytes16 value)
    writeWords space (address + 1) rest

def invalidateConfig : Exchange RemoteError Unit :=
  writeSpace 0xA1 0x02 []

/-- The first architecture that keeps its clock in words. -/
def wordClock : UInt16 := 8

/-- The time in the six bytes of a clock, where days and months count from zero and years from
2000. -/
def timeOfBytes (state : List UInt8) : DateTime where
  year := 2000 + (state.getD 5 0).toUInt16
  month := state.getD 4 0 + 1
  day := state.getD 3 0 + 1
  hour := state.getD 2 0
  minute := state.getD 1 0
  second := state.getD 0 0
  weekday := 7
  offset := 0
  zone := ""

/-- The time in the seven words of a clock; absent where a day, month or year leaves its word. -/
def timeOfWords (state : List UInt16) : Option DateTime := do
  let day ← checkedSum16 (state.getD 3 0) 1
  let month ← checkedSum16 (state.getD 5 0) 1
  let year ← checkedSum16 2000 (state.getD 6 0)
  return {
    year
    month := month.toUInt8
    day := day.toUInt8
    hour := (state.getD 2 0).toUInt8
    minute := (state.getD 1 0).toUInt8
    second := (state.getD 0 0).toUInt8
    weekday := (state.getD 4 0 &&& 7).toUInt8
    offset := 0
    zone := "" }

def readClockOf (architecture : UInt16) : Exchange RemoteError DateTime := do
  if architecture < wordClock then return timeOfBytes (← readBytes stateSpace 0 6)
  else ofChecked (timeOfWords (← readWords stateSpace 0 7))

def bytesOfTime (t : DateTime) : List UInt8 :=
  [t.second, t.minute, t.hour, predecessor t.day, predecessor t.month,
    (flooredDifference16 t.year 2000).toUInt8]

def wordsOfTime (t : DateTime) : List UInt16 :=
  [t.second.toUInt16, t.minute.toUInt16, t.hour.toUInt16, (predecessor t.day).toUInt16,
    t.weekday.toUInt16, (predecessor t.month).toUInt16, flooredDifference16 t.year 2000]

/-- Sets the clock of a remote of an architecture. The first architecture with a clock of words has
to be told to take the new time over. -/
def setClockOf (architecture : UInt16) (t : DateTime) : Exchange RemoteError Unit := do
  if architecture < wordClock then writeBytes stateSpace 0 (bytesOfTime t)
  else
    writeWords stateSpace 0 (wordsOfTime t)
    if architecture = wordClock then writeSpace 0xA1 0x08 []
  progress .setClock 1 1

end UniversalRemote.Classic
