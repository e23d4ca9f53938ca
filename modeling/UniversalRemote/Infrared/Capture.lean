import UniversalRemote.ByteOrder
import UniversalRemote.Infrared.Signal
import UniversalRemote.Link.Program
import UniversalRemote.Sequence
import UniversalRemote.Word
/-!
# Capturing infrared signals

A capture packet has 64 bytes: a code, a sequence number, big-endian words and, in the last byte,
how many of its bytes count. The first three words describe the opening burst; after them, sums of
a mark and the space behind it alternate with the length of the next mark.
-/

namespace UniversalRemote

/-- What is known of a signal while its capture runs. -/
structure Capture where
  sequence : Sequence := Sequence.eightBit 0 0x10
  /-- The number of words taken in. -/
  words : Nat := 0
  /-- The latest mark. -/
  mark : UInt32 := 0
  /-- The space that has run up behind the marks so far. -/
  gap : UInt32 := 0
  frequency : UInt32 := 0
  /-- The durations recorded so far, newest first. -/
  pulses : List UInt32 := []
  deriving DecidableEq, Repr

namespace Capture

def maxPulses : Nat := 1000

/-- The space that ends a capture. -/
def maxGap : UInt32 := 500000

/-- How long to wait for the next packet: longer for the first, before a key is pressed. -/
def wait (c : Capture) : Nat :=
  if c.words = 0 then 4000 else 500

/-- Whether the space is so long that the signal is over. -/
def isOver (c : Capture) : Bool :=
  maxGap ≤ c.gap

/-- Records a duration, if there is room. -/
def push (c : Capture) (t : UInt32) : Capture :=
  if c.pulses.length < maxPulses then { c with pulses := t :: c.pulses } else c

/-- Holds a packet's number against the sequence. Some remotes send `0x1F` where `0x10` is due and
count on from there. -/
def number (c : Capture) (actual : UInt8) : Except ProtocolError Capture :=
  let due := c.sequence.current
  if actual = due then .ok { c with sequence := c.sequence.skip 0x10 }
  else if actual = 0x1F ∧ due = 0x10 then
    .ok { c with sequence := (c.sequence.skip 0x0F).skip 0x10 }
  else .error (.sequenceMismatch due actual)

/-- The carrier frequency of a burst of so many pulses in so many microseconds. -/
def carrier (count duration : UInt32) : UInt32 :=
  UInt32.ofNat (count.toNat * 1000000 / duration.toNat)

/-- Takes in the word at the current place; the place then moves on. -/
def place (c : Capture) (t : UInt32) : Option Capture :=
  match c.words with
  | 0 => some c
  | 1 => some { c with mark := t }
  | 2 => some (if c.mark = 0 then c else { c with frequency := carrier t c.mark }.push c.mark)
  | n =>
    if n % 2 = 1 then
      if c.mark = 0 then (checkedSum c.gap t).map fun gap => { c with gap }
      else some { c with gap := if c.mark ≤ t then t - c.mark else 0 }
    else
      some (if t = 0 then { c with mark := t } else ({ c with mark := t }.push c.gap).push t)

/-- Takes in one word; absent where the space leaves its machine word. -/
def word (c : Capture) (t : UInt32) : Option Capture :=
  (c.place t).map fun next => { next with words := c.words + 1 }

def wordsOf : List UInt8 → List UInt32
  | high :: low :: rest => UInt32.ofNat (ByteOrder.big.value [high, low]) :: wordsOf rest
  | _ => []

def takeIn (c : Capture) (packet : Report) : Except (Halt ProtocolError) Capture :=
  match packet[63]? with
  | none => .error (.failed (.shortPacket 64 packet.length))
  | some length =>
    match c.number (packet.getD 1 0) with
    | .error cause => .error (.failed cause)
    | .ok c =>
      if length.toNat % 2 ≠ 0 ∨ 63 < length.toNat then
        .error (.failed (.malformed "IR capture length"))
      else
        match (wordsOf ((packet.take length.toNat).drop 2)).foldlM word c with
        | some c => .ok c
        | none => .error .overflow

/-- The signal, closed by the space that is still open. -/
def finish (c : Capture) : Signal :=
  ⟨c.frequency, (c.push c.gap).pulses.reverse⟩

end Capture

namespace Signal

open Exchange

/-- Takes in packets of a code until the signal is over or the remote says so. -/
def listen (code : UInt8) : Nat → Capture → Exchange RemoteError Signal
  | 0, c => if c.isOver then pure c.finish else stalled
  | patience + 1, c =>
    if c.isOver then pure c.finish
    else do
      let packet ← receive c.wait
      let kind := packet.headD 0 &&& 0xF0
      if kind = code then
        let c ← checkHalt (c.takeIn packet)
        progress .learnIr c.pulses.length Capture.maxPulses
        listen code patience c
      else if kind = 0xF0 then pure c.finish
      else refuse (.unexpectedResponse kind "learning IR")

def capture (code : UInt8) (patience : Nat) : Exchange RemoteError Signal :=
  listen code patience {}

end Signal

end UniversalRemote
