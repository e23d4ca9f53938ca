import UniversalRemote.ByteOrder
import UniversalRemote.Parameter.Length
import UniversalRemote.Text.Utf8
/-!
# Reading parameter lists

A list is either self-describing, a count byte in front of length bytes and payloads, or laid out
at fixed offsets that the command implies. Reports may be longer than the list they carry.
-/

namespace UniversalRemote

/-- The parameters of a response, and the order of their words. -/
structure ParameterList where
  order : ByteOrder
  values : List (List UInt8)
  deriving DecidableEq, Repr

namespace ParameterList

def bytes (p : ParameterList) (i : Nat) : Except ProtocolError (List UInt8) :=
  match p.values[i]? with
  | some value => .ok value
  | none => .error (.malformed "missing parameter")

/-- The bytes of a parameter that must have at least `size` of them. -/
def sized (p : ParameterList) (i size : Nat) : Except ProtocolError (List UInt8) := do
  let value ← p.bytes i
  if value.length < size then .error (.shortPacket size value.length) else .ok value

def byte (p : ParameterList) (i : Nat) : Except ProtocolError UInt8 := do
  return (← p.sized i 1).headD 0

def word (p : ParameterList) (i : Nat) : Except ProtocolError UInt16 := do
  return p.order.word16 (← p.sized i 2)

def dword (p : ParameterList) (i : Nat) : Except ProtocolError UInt32 := do
  return p.order.word32 (← p.sized i 4)

/-- The text of a parameter, up to its first zero byte. -/
def text (p : ParameterList) (i : Nat) : Except ProtocolError String := do
  return Utf8.decode ((← p.bytes i).takeWhile (· != 0))

/-- Walks `count` length bytes and payloads at the end of a report of `total` bytes. -/
def entries (total : Nat) : Nat → List UInt8 → Except ProtocolError (List (List UInt8))
  | 0, _ => .ok []
  | _ + 1, [] => .error (.shortPacket (total + 1) total)
  | count + 1, b :: rest =>
    let length := Length.decode b
    if rest.length < length then
      .error (.shortPacket (total - rest.length + length) total)
    else
      (entries total count (rest.drop length)).map (rest.take length :: ·)

/-- The self-describing list whose count byte sits at `countAt`; there is none in a report that
ends before it. -/
def parse (data : List UInt8) (countAt : Nat) (order : ByteOrder) :
    Except ProtocolError ParameterList :=
  match data.drop countAt with
  | [] => .ok ⟨order, []⟩
  | count :: rest => (entries data.length count.toNat rest).map (⟨order, ·⟩)

/-- The list of a network response, behind its four header bytes. -/
def ofNetwork (data : List UInt8) : Except ProtocolError ParameterList :=
  parse data 3 .big

/-- The values at offsets and lengths, up to the first that a report is too short for. -/
def atOffsets (data : List UInt8) (layout : List (Nat × Nat)) : List (List UInt8) :=
  (layout.takeWhile fun (offset, length) => offset + length ≤ data.length).map
    fun (offset, length) => (data.drop offset).take length

def systemLayout : List (Nat × Nat) :=
  [(4, 2), (6, 2), (8, 2), (10, 2), (12, 2), (14, 1), (15, 2), (17, 2)]

def clockLayout : List (Nat × Nat) :=
  [(4, 2), (6, 1), (7, 1), (8, 1), (9, 1), (10, 1), (11, 1), (12, 2), (14, 2), (16, 2), (18, 2)]

def zoneOffset : Nat := 20

/-- The list of a datagram response, given without its length byte: the third byte names the
command, and three commands answer with fixed layouts. A clock reading without a zone ends after
its first eight values. -/
def ofDatagram (data : List UInt8) : Except ProtocolError ParameterList :=
  match data[2]? with
  | none => .error (.shortPacket 4 data.length)
  | some command =>
    if command = 0x61 then .ok ⟨.little, atOffsets data systemLayout⟩
    else if command = 0x67 then .ok ⟨.little, atOffsets data [(4, 16)]⟩
    else if command = 0x70 then
      if zoneOffset < data.length then
        .ok ⟨.little, atOffsets data clockLayout ++ [data.drop zoneOffset]⟩
      else .ok ⟨.little, (atOffsets data clockLayout).take 8⟩
    else parse data 4 .little

end ParameterList

end UniversalRemote
