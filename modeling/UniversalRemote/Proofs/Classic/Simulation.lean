import UniversalRemote.Classic.Basic
import UniversalRemote.Proofs.Flash.Memory
import UniversalRemote.Proofs.Link.Obeying
/-!
# A simulated classic remote

A remote with a flash memory that can be programmed, erased and read. Its packets follow the framing
of its protocol version: it cuts what it sends into the largest packets that are still filled, and
takes in blocks by their length codes. What it does about each command is said below, one
equation a command.
-/

namespace UniversalRemote.Classic

/-- The codes of packets that carry something, largest first. -/
def packetCodes : List UInt8 := [15, 14, 13, 12, 11, 10, 9, 8, 7, 6, 5, 4, 3, 2]

/-- The code of the largest packet that `length` bytes fill. -/
def Framing.packetCode? (f : Framing) (length : Nat) : Option UInt8 :=
  packetCodes.find? fun code => 0 < f.payload code && f.payload code ≤ length

/-- The numbered packets that carry the `length` bytes of a memory at an address. -/
def packets (f : Framing) (m : Memory) (address length : Nat) (number : UInt8) : List Report :=
  match h : f.packetCode? length with
  | none => []
  | some code =>
    ((0x60 ||| code) :: number :: m.slice address (f.payload code)) ::
      packets f m (address + f.payload code) (length - f.payload code) (number + 0x11)
termination_by length
decreasing_by
  have := List.find?_some h
  simp at this
  omega

structure Simulated where
  layout : SectorLayout
  framing : Framing
  /-- What it answers when asked for its version. -/
  version : Report

namespace Simulated

structure State where
  memory : Memory
  /-- Where the next block is programmed. -/
  cursor : Nat
  /-- What has been answered and not been read. -/
  answers : List Report

def State.answer (s : State) (reports : List Report) : State :=
  ⟨s.memory, s.cursor, s.answers ++ reports⟩

variable (r : Simulated)

/-- Programs the block of a packet with a length code. -/
def takeBlock (s : State) (code : UInt8) (body : List UInt8) : State :=
  match r.framing.blocks.find? (·.1 == code) with
  | some block =>
    ⟨s.memory.program s.cursor (body.take block.2), s.cursor + block.2, s.answers⟩
  | none => s

def eraseAt (s : State) (address : Nat) : State :=
  match (r.layout.sectors.getD []).find? fun t => t.first.toNat == address with
  | some sector => ⟨s.memory.erase [sector], s.cursor, s.answers ++ [[0xF0]]⟩
  | none => s

def obey (s : State) : Report → State
  | [] => s
  | code :: body =>
    let address := ByteOrder.big.value (body.take 3)
    let length := ByteOrder.big.value ((body.drop 3).take 2)
    if kind code = 0x10 then s.answer [r.version]
    else if kind code = 0x50 then
      s.answer (packets r.framing s.memory address length 0x01 ++ [[0xF0]])
    else if kind code = 0x30 then ⟨s.memory, address, s.answers⟩
    else if kind code = 0x40 then r.takeBlock s (lengthCode code) body
    else if kind code = 0xF0 then s.answer [[0xF1, 0x30]]
    else if kind code = 0xD0 then r.eraseAt s address
    else if kind code = 0xB0 then
      s.answer [[0xC2, body.headD 0, s.memory (body.getD 1 0).toNat]]
    else if kind code = 0xA0 then s.answer [[0xF0, body.headD 0]]
    else s

abbrev device : Device State :=
  .obeying r.obey State.answers fun s rest => ⟨s.memory, s.cursor, rest⟩

/-! ## Commands -/

variable (m : Memory) (cursor : Nat)

theorem obey_version : r.obey ⟨m, cursor, []⟩ [0x10] = ⟨m, cursor, [r.version]⟩ := rfl

theorem obey_readCommand {address : UInt32} {length : Nat} (haddress : address.toNat < 0x1000000)
    (hlength : length < 0x10000) :
    r.obey ⟨m, cursor, []⟩ (readCommand address length) =
      ⟨m, cursor, packets r.framing m address.toNat length 0x01 ++ [[0xF0]]⟩ := by
  have hvalue : ByteOrder.big.value ((ByteOrder.big.bytes 2 length).take 2) = length := by
    rw [List.take_of_length_le (by simp), ByteOrder.value_bytes]
    exact Nat.mod_eq_of_lt hlength
  have hkind : kind 0x55 = 0x50 := rfl
  simp only [readCommand, List.cons_append, obey, take_addressBytes, drop_addressBytes, hvalue,
    value_addressBytes haddress, hkind]
  rfl

theorem obey_writeCommand {address : UInt32} (haddress : address.toNat < 0x1000000) (length : Nat) :
    r.obey ⟨m, cursor, []⟩ (writeCommand address length) = ⟨m, address.toNat, []⟩ := by
  have hkind : kind 0x35 = 0x30 := rfl
  simp only [writeCommand, List.cons_append, obey, take_addressBytes, value_addressBytes haddress,
    hkind]
  rfl

theorem obey_block (s : State) {code : UInt8} (hkind : kind code = 0x40) (body : List UInt8) :
    r.obey s (code :: body) = r.takeBlock s (lengthCode code) body := by
  simp only [obey, hkind]
  rfl

theorem obey_writeDone :
    r.obey ⟨m, cursor, []⟩ writeDone = ⟨m, cursor, [[0xF1, 0x30]]⟩ := rfl

theorem obey_eraseCommand {sectors : List Sector} {start stop : Nat} {sector : Sector}
    (hsectors : r.layout.sectors = some sectors) (htiles : Tiles start sectors stop)
    (hsector : sector ∈ sectors) (haddress : sector.first.toNat < 0x1000000) :
    r.obey ⟨m, cursor, []⟩ (eraseCommand sector.first) = ⟨m.erase [sector], cursor, [[0xF0]]⟩ := by
  have hkind : kind 0xD3 = 0xD0 := rfl
  have htake : (addressBytes sector.first).take 3 = addressBytes sector.first :=
    List.take_of_length_le (by simp [addressBytes])
  have hfind : (r.layout.sectors.getD []).find? (fun t => t.first.toNat == sector.first.toNat) =
      some sector := by
    rw [hsectors]
    exact htiles.find?_first hsector
  simp only [eraseCommand, obey, htake, value_addressBytes haddress, hkind]
  change r.eraseAt ⟨m, cursor, []⟩ sector.first.toNat = _
  rw [eraseAt, hfind]
  rfl

theorem obey_readSpace (space address : UInt8) :
    r.obey ⟨m, cursor, []⟩ [0xB2, space, address] =
      ⟨m, cursor, [[0xC2, space, m address.toNat]]⟩ := rfl

theorem obey_writeSpace (space : UInt8) (body : List UInt8) :
    r.obey ⟨m, cursor, []⟩ (0xA1 :: space :: body) = ⟨m, cursor, [[0xF0, space]]⟩ := rfl

/-! ## Reports -/

theorem ending_receivePacket (code : UInt8) (body : List UInt8) (rest : List Report) (timeout : Nat) :
    (receivePacket timeout).ending r.device ⟨m, cursor, (code :: body) :: rest⟩ =
      (.ok (code, body), ⟨m, cursor, rest⟩) := by
  have hnext : State.answers ⟨m, cursor, (code :: body) :: rest⟩ = (code :: body) :: rest := rfl
  rw [receivePacket, Exchange.ending_bind_ok (Device.ending_receive hnext timeout),
    Exchange.ending_pure]

/-- A command that is answered by one packet. -/
theorem ending_ask {s : State} {report : Report} {code : UInt8} {body : List UInt8}
    (hobey : r.obey s report = ⟨m, cursor, [code :: body]⟩) (timeout : Nat)
    (next : UInt8 × List UInt8 → Exchange RemoteError α) :
    (do Exchange.send report; next (← receivePacket timeout)).ending r.device s =
      (next (code, body)).ending r.device ⟨m, cursor, []⟩ := by
  rw [Exchange.ending_bind_ok (Device.ending_send s report), hobey,
    Exchange.ending_bind_ok (r.ending_receivePacket m cursor code body [] timeout)]

end Simulated

end UniversalRemote.Classic
