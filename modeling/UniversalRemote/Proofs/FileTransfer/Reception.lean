import Mathlib.Algebra.Ring.Nat
import UniversalRemote.Proofs.FileTransfer.Dialogue
/-!
# Receiving the data of a file

Which packets are received as the data of a file, and how the acknowledgements stand between them.
-/

namespace UniversalRemote.FileTransfer

open Exchange

/-! ## Data packets -/

/-- How many bytes a data packet says that it carries. -/
def payloadSize (packet : Report) : Nat :=
  (packet.getD 1 0).toNat % 64

def payload (packet : Report) : List UInt8 :=
  (packet.drop 2).take (payloadSize packet)

/-- A packet has all the bytes that it says it carries. -/
def Full (packet : Report) : Prop :=
  2 + payloadSize packet ≤ packet.length

theorem Full.length_payload {packet : Report} (h : Full packet) :
    (payload packet).length = payloadSize packet := by
  unfold Full at h
  rw [payload, List.length_take, List.length_drop]
  omega

theorem payloadSize_cons_cons (number header : UInt8) (data : List UInt8) :
    payloadSize (number :: header :: data) = (header &&& 0x3F).toNat := by
  rw [UInt8.toNat_and]
  exact (Nat.and_two_pow_sub_one_eq_mod header.toNat 6).symm

/-- The numbers that follow a packet, where it is received as data behind `received` bytes. -/
def takeIn (expected : Option Sequence) (length received : Nat) (packet : Report) :
    Except ProtocolError Sequence :=
  match packet with
  | number :: _ :: _ =>
    match numberData expected number with
    | .error cause => .error cause
    | .ok following =>
      let size := payloadSize packet
      if packet.length < 2 + size then .error (.shortPacket (2 + size) packet.length)
      else if length < received + size then .error (.lengthMismatch length (received + size))
      else .ok following
  | _ => .error (.shortPacket 2 packet.length)

theorem takeIn_eq_ok_iff {expected : Option Sequence} {length received : Nat} {packet : Report}
    {following : Sequence} :
    takeIn expected length received packet = .ok following ↔
      Full packet ∧ received + payloadSize packet ≤ length ∧
        numberData expected (packet.getD 0 0) = .ok following := by
  unfold Full
  match packet with
  | [] => exact ⟨fun h => (nomatch h), fun h => absurd h.1 (by simp)⟩
  | [number] =>
    refine ⟨fun h => (nomatch h), fun h => absurd h.1 ?_⟩
    rw [List.length_singleton]
    omega
  | number :: header :: data =>
    have hnumber : List.getD (number :: header :: data) 0 0 = number := rfl
    rw [hnumber, takeIn]
    cases numberData expected number with
    | error cause => exact ⟨fun h => (nomatch h), fun h => nomatch h.2.2⟩
    | ok sequence =>
      by_cases hshort : List.length (number :: header :: data) <
          2 + payloadSize (number :: header :: data)
      · simp only [if_pos hshort]
        exact ⟨fun h => (nomatch h), fun h => absurd h.1 (by omega)⟩
      by_cases hlong : length < received + payloadSize (number :: header :: data)
      · simp only [if_neg hshort, if_pos hlong]
        exact ⟨fun h => (nomatch h), fun h => absurd h.2.1 (by omega)⟩
      · simp only [if_neg hshort, if_neg hlong]
        exact ⟨fun h => ⟨by omega, by omega, h⟩, fun h => h.2.2⟩

theorem receiveData_succ (token : UInt8) (length : Nat) (stage : Stage) (left : Nat)
    (expected : Option Sequence) (unacked received : Nat) (past : List (List UInt8)) :
    receiveData token length stage (left + 1) expected unacked received past = (do
      let packet ← receive fileWait
      let following ← check (takeIn expected length received packet)
      let received := received + payloadSize packet
      Numbered.progress stage received length
      if 0 < left ∧ unacked + 1 = ackInterval then
        let number ← Numbered.next
        let _ ← converse (readAck number token (window (left + 1))) promptWait
        receiveData token length stage left (some following) 0 received (payload packet :: past)
      else
        receiveData token length stage left (some following) (unacked + 1) received
          (payload packet :: past)) := by
  rw [receiveData]
  congr 1
  funext packet
  match packet with
  | [] => rfl
  | [number] => rfl
  | number :: header :: data =>
    simp only [takeIn]
    cases numberData expected number with
    | error cause => rfl
    | ok following =>
      have hlength : List.length (number :: header :: data) = 2 + data.length := by
        rw [List.length_cons, List.length_cons]
        omega
      simp only [payloadSize_cons_cons, payload, hlength, Nat.add_lt_add_iff_left]
      by_cases hshort : data.length < (header &&& 0x3F).toNat
      · simp only [if_pos hshort]
        rfl
      by_cases hlong : length < received + (header &&& 0x3F).toNat
      · simp only [if_neg hshort, if_pos hlong]
        rfl
      · simp only [if_neg hshort, if_neg hlong]
        rfl

/-! ## Packets in a row -/

/-- Packets carry numbers in a row, from a given one on or from any. -/
def InRow : Option Nat → List Report → Prop
  | _, [] => True
  | expected, packet :: rest =>
    (∀ count ∈ expected, packet.getD 0 0 = numberAt count) ∧
      InRow (some (expected.getD (packet.getD 0 0).toNat + 1)) rest

/-- The turns at one packet, with `left` packets behind it. Where fifty have come since the last
acknowledgement and more are to come, another acknowledgement goes behind it. -/
def Paced (token : UInt8) (left count unacked : Nat) (packet : Report) (turns : List Turn)
    (count' unacked' : Nat) : Prop :=
  if 0 < left ∧ unacked + 1 = ackInterval then
    (∃ answer, turns =
      [.hear packet, .say (readAck (numberAt count) token (window (left + 1))), .hear answer]) ∧
    count' = count + 1 ∧ unacked' = 0
  else turns = [.hear packet] ∧ count' = count ∧ unacked' = unacked + 1

/-- The dialogue in which packets are received, from one count of numbers used to another. -/
def Woven (token : UInt8) : Nat → Nat → List Report → List Turn → Nat → Prop
  | count, _, [], dialogue, final => dialogue = [] ∧ count = final
  | count, unacked, packet :: rest, dialogue, final =>
    ∃ turns later count' unacked', dialogue = turns ++ later ∧
      Paced token rest.length count unacked packet turns count' unacked' ∧
      Woven token count' unacked' rest later final

theorem eq_numberAt_iff {number : UInt8} {count : Nat} :
    number = numberAt count ↔ number.toNat = count % 64 := by
  rw [← toNat_numberAt, UInt8.toNat_inj]

theorem inRow_some {count : Nat} {packets : List Report} :
    InRow (some count) packets ↔
      ∀ i packet, packets[i]? = some packet → (packet.getD 0 0).toNat = (count + i) % 64 := by
  induction packets generalizing count with
  | nil => exact ⟨fun _ i packet h => (nomatch h), fun _ => trivial⟩
  | cons first rest ih =>
    have hfirst : (∀ other ∈ some count, first.getD 0 0 = numberAt other) ↔
        (first.getD 0 0).toNat = count % 64 := by
      rw [← eq_numberAt_iff]
      exact ⟨fun h => h count rfl, fun h other hother => Option.some.inj hother ▸ h⟩
    rw [InRow, hfirst, Option.getD_some, ih]
    constructor
    · rintro ⟨hnumber, hrest⟩ i packet hpacket
      cases i with
      | zero =>
        obtain rfl : first = packet := Option.some.inj hpacket
        exact hnumber
      | succ i =>
        have hcount : count + (i + 1) = count + 1 + i := by omega
        rw [hcount]
        exact hrest i packet hpacket
    · intro h
      refine ⟨h 0 first rfl, fun i packet hpacket => ?_⟩
      have hcount : count + 1 + i = count + (i + 1) := by omega
      rw [hcount]
      exact h (i + 1) packet hpacket

theorem inRow_none {packets : List Report} :
    InRow none packets ↔ ∀ i packet, 0 < i → packets[i]? = some packet →
      (packet.getD 0 0).toNat = (((packets.headD []).getD 0 0).toNat + i) % 64 := by
  cases packets with
  | nil => exact ⟨fun _ i packet _ h => (nomatch h), fun _ => trivial⟩
  | cons first rest =>
    rw [InRow, Option.getD_none, inRow_some, List.headD_cons]
    constructor
    · rintro ⟨-, h⟩ i packet hi hpacket
      obtain ⟨i, rfl⟩ : ∃ j, i = j + 1 := ⟨i - 1, by omega⟩
      have hcount : (first.getD 0 0).toNat + (i + 1) = (first.getD 0 0).toNat + 1 + i := by omega
      rw [hcount]
      exact h i packet hpacket
    · refine fun h => ⟨nofun, fun i packet hpacket => ?_⟩
      have hcount : (first.getD 0 0).toNat + 1 + i = (first.getD 0 0).toNat + (i + 1) := by omega
      rw [hcount]
      exact h (i + 1) packet (by omega) hpacket

theorem numberData_counter {expected : Option Nat} {number : UInt8} {following : Sequence} :
    numberData (expected.map counter) number = .ok following ↔
      (∀ count ∈ expected, number = numberAt count) ∧
        counter (expected.getD number.toNat + 1) = following := by
  rw [← advance_counter]
  cases expected with
  | none =>
    have hcounter : counter number.toNat = Sequence.sixBit number := by
      rw [counter, UInt8.ofNat_toNat]
    rw [Option.getD_none, hcounter]
    exact ⟨fun h => ⟨fun _ hnone => (nomatch hnone), Except.ok.inj h⟩, fun h => congrArg _ h.2⟩
  | some count =>
    rw [Option.getD_some]
    refine Sequence.accept_eq_ok_iff.trans (and_congr_left fun _ => ?_)
    rw [current_counter]
    exact ⟨fun h other hother => Option.some.inj hother ▸ h, fun h => h count rfl⟩

/-- Behind a packet that was heard, the host acknowledges what it has, if that is due, and goes on. -/
theorem yields_paced {token : UInt8} {left unacked count : Nat} {packet : Report}
    {next : Nat → Numbered α} {dialogue : List Turn} {a : α} {m : Sequence} :
    (∃ later, dialogue = .hear packet :: later ∧
      Numbered.Yields (if 0 < left ∧ unacked + 1 = ackInterval then do
        let number ← Numbered.next
        let _ ← converse (readAck number token (window (left + 1))) promptWait
        next 0
      else next (unacked + 1)) (counter count) later a m) ↔
      ∃ turns later count' unacked', dialogue = turns ++ later ∧
        Paced token left count unacked packet turns count' unacked' ∧
        (next unacked').Yields (counter count') later a m := by
  unfold Paced
  split
  · simp only [Numbered.yields_next_bind, Numbered.yields_converse_bind]
    constructor
    · rintro ⟨_, rfl, answer, rest, rfl, hrest⟩
      exact ⟨_, rest, _, _, rfl, ⟨⟨answer, rfl⟩, rfl, rfl⟩, hrest⟩
    · rintro ⟨_, rest, _, _, rfl, ⟨⟨answer, rfl⟩, rfl, rfl⟩, hrest⟩
      exact ⟨_, rfl, answer, rest, rfl, hrest⟩
  · constructor
    · rintro ⟨later, rfl, hlater⟩
      exact ⟨_, later, _, _, rfl, ⟨rfl, rfl, rfl⟩, hlater⟩
    · rintro ⟨_, later, _, _, rfl, ⟨rfl, rfl, rfl⟩, hlater⟩
      exact ⟨later, rfl, hlater⟩

theorem yields_receiveData_succ {token : UInt8} {length : Nat} {stage : Stage} {left : Nat}
    {expected : Option Nat} {unacked received count : Nat} {past out : List (List UInt8)}
    {dialogue : List Turn} {m : Sequence} :
    (receiveData token length stage (left + 1) (expected.map counter) unacked received past).Yields
        (counter count) dialogue out m ↔
      ∃ packet, Full packet ∧ received + payloadSize packet ≤ length ∧
        (∀ count ∈ expected, packet.getD 0 0 = numberAt count) ∧
        ∃ turns later count' unacked', dialogue = turns ++ later ∧
          Paced token left count unacked packet turns count' unacked' ∧
          (receiveData token length stage left
            ((some (expected.getD (packet.getD 0 0).toNat + 1)).map counter) unacked'
            (received + payloadSize packet) (payload packet :: past)).Yields
              (counter count') later out m := by
  rw [receiveData_succ, Numbered.yields_receive_bind]
  apply exists_congr
  intro packet
  simp only [Numbered.yields_check_bind, Numbered.yields_progress_bind, takeIn_eq_ok_iff,
    numberData_counter]
  constructor
  · rintro ⟨later, hdialogue, _, ⟨hfull, hlength, hexpected, rfl⟩, hlater⟩
    exact ⟨hfull, hlength, hexpected, yields_paced.1 ⟨later, hdialogue, hlater⟩⟩
  · rintro ⟨hfull, hlength, hexpected, hpaced⟩
    obtain ⟨later, hdialogue, hlater⟩ := yields_paced.2 hpaced
    exact ⟨later, hdialogue, _, ⟨hfull, hlength, hexpected, rfl⟩, hlater⟩

theorem yields_receiveData {token : UInt8} {length : Nat} {stage : Stage} (left : Nat) :
    ∀ (expected : Option Nat) {unacked received count : Nat} {past out : List (List UInt8)}
      {dialogue : List Turn} {m : Sequence},
      (receiveData token length stage left (expected.map counter) unacked received past).Yields
          (counter count) dialogue out m ↔
        ∃ packets final, packets.length = left ∧ (∀ packet ∈ packets, Full packet) ∧
          InRow expected packets ∧ received + (packets.map payloadSize).sum = length ∧
          Woven token count unacked packets dialogue final ∧ counter final = m ∧
          (packets.map payload).reverse ++ past = out := by
  -- on the packets still to come; those that came stand in `received`, `past` and `expected`
  induction left with
  | zero =>
    intro expected unacked received count past out dialogue m
    rw [receiveData]
    constructor
    · intro h
      split at h
      · obtain ⟨_, _, _, _, _, hrefuse, -⟩ := Numbered.yields_bind.1 h
        exact absurd hrefuse Numbered.not_yields_refuse
      · rename_i hlength
        obtain ⟨rfl, rfl, rfl⟩ := Numbered.yields_pure.1 h
        exact ⟨[], count, rfl, nofun, trivial, by simpa using hlength, ⟨rfl, rfl⟩, rfl, rfl⟩
    · rintro ⟨packets, final, hpackets, -, -, hlength, hwoven, rfl, rfl⟩
      obtain rfl := List.eq_nil_of_length_eq_zero hpackets
      obtain ⟨rfl, rfl⟩ := hwoven
      have hlength : ¬ received ≠ length := by simpa using hlength
      rw [if_neg hlength]
      exact Numbered.yields_pure.2 ⟨rfl, rfl, rfl⟩
  | succ left ih =>
    intro expected unacked received count past out dialogue m
    rw [yields_receiveData_succ]
    constructor
    · rintro ⟨packet, hfull, -, hexpected, turns, later, count', unacked', rfl, hpaced, hlater⟩
      obtain ⟨packets, final, rfl, hfulls, hrow, hsum, hwoven, hm, hout⟩ := (ih _).1 hlater
      refine ⟨packet :: packets, final, rfl, List.forall_mem_cons.2 ⟨hfull, hfulls⟩,
        ⟨hexpected, hrow⟩, ?_, ⟨turns, later, count', unacked', rfl, hpaced, hwoven⟩, hm, ?_⟩
      · rw [List.map_cons, List.sum_cons, ← hsum, Nat.add_assoc]
      · rw [List.map_cons, List.reverse_cons, List.append_assoc, ← hout]
        rfl
    · rintro ⟨packets, final, hpackets, hfulls, hrow, hsum, hwoven, hm, hout⟩
      obtain ⟨packet, packets, rfl⟩ := List.exists_cons_of_length_eq_add_one hpackets
      obtain rfl : packets.length = left := Nat.succ.inj hpackets
      obtain ⟨hfull, hfulls⟩ := List.forall_mem_cons.1 hfulls
      obtain ⟨hexpected, hrow⟩ := hrow
      obtain ⟨turns, later, count', unacked', rfl, hpaced, hwoven⟩ := hwoven
      rw [List.map_cons, List.sum_cons, ← Nat.add_assoc] at hsum
      refine ⟨packet, hfull, by omega, hexpected, turns, later, count', unacked', rfl, hpaced, ?_⟩
      refine (ih _).2 ⟨packets, final, rfl, hfulls, hrow, hsum, hwoven, hm, ?_⟩
      rw [← hout, List.map_cons, List.reverse_cons, List.append_assoc]
      rfl

theorem yields_receiveFile {token : UInt8} {length count : Nat} {stage : Stage}
    {dialogue : List Turn} {data : List UInt8} {m : Sequence} :
    (receiveFile token length stage).Yields (counter count) dialogue data m ↔
      ∃ answer later packets final,
        dialogue = .say (readAck (numberAt count) token (window (countedPackets length))) ::
          .hear answer :: later ∧
        packets.length + 1 = countedPackets length ∧ (∀ packet ∈ packets, Full packet) ∧
        InRow none packets ∧ (packets.map payloadSize).sum = length ∧
        Woven token (count + 1) 0 packets later final ∧ counter final = m ∧
        packets.flatMap payload = data := by
  have hflatten : ∀ packets : List Report,
      ((packets.map payload).reverse ++ []).reverse.flatten = packets.flatMap payload := by
    intro packets
    rw [List.append_nil, List.reverse_reverse, List.flatMap_def]
  have hcounted : countedPackets length - 1 + 1 = countedPackets length := rfl
  rw [receiveFile, Numbered.yields_next_bind, Numbered.yields_converse_bind]
  constructor
  · rintro ⟨answer, _, rfl, h⟩
    obtain ⟨out, between, later, _, rfl, hreceive, hpure⟩ := Numbered.yields_bind.1 h
    obtain ⟨rfl, rfl, rfl⟩ := Numbered.yields_pure.1 hpure
    obtain ⟨packets, final, hpackets, hfull, hrow, hsum, hwoven, hm, rfl⟩ :=
      (yields_receiveData _ none).1 hreceive
    rw [Nat.zero_add] at hsum
    rw [← hpackets] at hcounted
    exact ⟨answer, later, packets, final, by rw [List.append_nil], hcounted, hfull, hrow, hsum,
      hwoven, hm, (hflatten packets).symm⟩
  · rintro ⟨answer, later, packets, final, rfl, hpackets, hfull, hrow, hsum, hwoven, hm, rfl⟩
    refine ⟨answer, later, rfl, Numbered.yields_bind.2 ⟨_, m, later, [], ?_,
      (yields_receiveData _ none).2 ⟨packets, final, ?_, hfull, hrow, ?_, hwoven, hm, rfl⟩,
      Numbered.yields_pure.2 ⟨rfl, rfl, hflatten packets⟩⟩⟩
    · rw [List.append_nil]
    · rw [← hpackets, Nat.add_sub_cancel]
    · rw [Nat.zero_add, hsum]

/-! ## Where the packets stand among the reports -/

/-- How many acknowledgements stand between packets, where some have come since the last one. -/
def pauses (unacked packets : Nat) : Nat :=
  (unacked + packets - 1) / ackInterval

theorem pauses_zero {unacked : Nat} (hunacked : unacked ≤ ackInterval) : pauses unacked 0 = 0 := by
  unfold pauses ackInterval at *
  omega

theorem pauses_succ (unacked packets : Nat) :
    pauses unacked (packets + 1) = pauses (unacked + 1) packets := by
  unfold pauses
  congr 1
  omega

theorem pauses_ackInterval {packets : Nat} (hpackets : 0 < packets) :
    pauses ackInterval packets = pauses 0 packets + 1 := by
  unfold pauses ackInterval
  omega

/-- A stream of reports has packets in it, and one more report behind every fiftieth that is not the
last one. -/
structure Spread (unacked : Nat) (packets stream : List Report) : Prop where
  length_eq : stream.length = packets.length + pauses unacked packets.length
  getElem?_eq : ∀ i < packets.length,
    stream[i + (unacked + i) / ackInterval]? = packets[i]?

theorem spread_nil {unacked : Nat} (hunacked : unacked ≤ ackInterval) {stream : List Report} :
    Spread unacked [] stream ↔ stream = [] := by
  have hpauses := pauses_zero hunacked
  constructor
  · intro h
    have hlength := h.length_eq
    rw [List.length_nil, hpauses] at hlength
    exact List.eq_nil_of_length_eq_zero hlength
  · rintro rfl
    refine ⟨?_, nofun⟩
    rw [List.length_nil, hpauses]

theorem spread_cons {unacked : Nat} {packet : Report} {rest stream : List Report}
    (hunacked : unacked < ackInterval) :
    Spread unacked (packet :: rest) stream ↔
      ∃ later, stream = packet :: later ∧ Spread (unacked + 1) rest later := by
  have hfirst : 0 + (unacked + 0) / ackInterval = 0 := by
    unfold ackInterval at *
    omega
  have hindex : ∀ i, i + 1 + (unacked + (i + 1)) / ackInterval =
      i + (unacked + 1 + i) / ackInterval + 1 := by
    intro i
    unfold ackInterval
    omega
  have hpauses := pauses_succ unacked rest.length
  constructor
  · intro h
    have hpacket : stream[0]? = some packet := by
      have := h.getElem?_eq 0 (by simp)
      rwa [hfirst] at this
    obtain ⟨later, rfl⟩ : ∃ later, stream = packet :: later := by
      cases stream with
      | nil => exact nomatch hpacket
      | cons head later => exact ⟨later, by rw [Option.some.inj hpacket]⟩
    refine ⟨later, rfl, ?_, fun i hi => ?_⟩
    · have hlength := h.length_eq
      rw [List.length_cons, List.length_cons, hpauses] at hlength
      omega
    · have hget := h.getElem?_eq (i + 1) (by rw [List.length_cons]; omega)
      rwa [hindex, List.getElem?_cons_succ, List.getElem?_cons_succ] at hget
  · rintro ⟨later, rfl, h⟩
    refine ⟨?_, fun i hi => ?_⟩
    · rw [List.length_cons, List.length_cons, hpauses, h.length_eq]
      omega
    · cases i with
      | zero => rw [hfirst, List.getElem?_cons_zero, List.getElem?_cons_zero]
      | succ i =>
        rw [List.length_cons] at hi
        rw [hindex, List.getElem?_cons_succ, List.getElem?_cons_succ]
        exact h.getElem?_eq i (by omega)

theorem spread_ackInterval {packets stream : List Report} (hpackets : 0 < packets.length) :
    Spread ackInterval packets stream ↔
      ∃ answer later, stream = answer :: later ∧ Spread 0 packets later := by
  have hindex : ∀ i, i + (ackInterval + i) / ackInterval = i + (0 + i) / ackInterval + 1 := by
    intro i
    unfold ackInterval
    omega
  have hpauses := pauses_ackInterval hpackets
  constructor
  · intro h
    have hlength := h.length_eq
    rw [hpauses] at hlength
    obtain ⟨answer, later, rfl⟩ := List.exists_cons_of_length_pos (l := stream) (by omega)
    rw [List.length_cons] at hlength
    refine ⟨answer, later, rfl, by omega, fun i hi => ?_⟩
    have hget := h.getElem?_eq i hi
    rwa [hindex, List.getElem?_cons_succ] at hget
  · rintro ⟨answer, later, rfl, h⟩
    refine ⟨?_, fun i hi => ?_⟩
    · rw [List.length_cons, hpauses, h.length_eq]
      omega
    · rw [hindex, List.getElem?_cons_succ]
      exact h.getElem?_eq i hi

/-- The turns at a stream of reports whose first has the index `i`. Every fifty-first report answers an
acknowledgement, which goes in front of it. -/
def exchanges (ack : Nat → Report) (i : Nat) (stream : List Report) : List Turn :=
  (stream.zipIdx i).flatMap fun (report, i) =>
    if i % 51 = 50 then [.say (ack (i / 51 + 1)), .hear report] else [.hear report]

section Exchanges

variable {ack : Nat → Report} {report : Report} {stream : List Report}

theorem exchanges_cons (i : Nat) :
    exchanges ack i (report :: stream) =
      (if i % 51 = 50 then [.say (ack (i / 51 + 1)), .hear report] else [.hear report]) ++
        exchanges ack (i + 1) stream := by
  rw [exchanges, List.zipIdx_cons, List.flatMap_cons]
  rfl

theorem exchanges_packet (fifties : Nat) {unacked : Nat} (hunacked : unacked < ackInterval) :
    exchanges ack (51 * fifties + unacked) (report :: stream) =
      .hear report :: exchanges ack (51 * fifties + (unacked + 1)) stream := by
  have hindex : ¬ (51 * fifties + unacked) % 51 = 50 := by
    unfold ackInterval at hunacked
    omega
  rw [exchanges_cons, if_neg hindex]
  rfl

theorem exchanges_answer (fifties : Nat) :
    exchanges ack (51 * fifties + ackInterval) (report :: stream) =
      .say (ack (fifties + 1)) :: .hear report :: exchanges ack (51 * (fifties + 1)) stream := by
  have hindex : (51 * fifties + 50) % 51 = 50 := by omega
  have hcount : (51 * fifties + 50) / 51 + 1 = fifties + 1 := by omega
  have hnext : 51 * fifties + 50 + 1 = 51 * (fifties + 1) := by omega
  rw [ackInterval, exchanges_cons, if_pos hindex, hcount, hnext]
  rfl

theorem hears_exchanges (i : Nat) (stream : List Report) : Hears (exchanges ack i stream) stream := by
  induction stream generalizing i with
  | nil => rfl
  | cons report stream ih =>
    rw [exchanges_cons]
    split
    · exact ⟨rfl, report, stream, rfl, rfl, ih (i + 1)⟩
    · exact ⟨report, stream, rfl, rfl, ih (i + 1)⟩

end Exchanges

section Woven

variable {token : UInt8} {packet : Report} {rest : List Report} {count unacked final : Nat}
  {dialogue : List Turn}

theorem woven_cons_ack (hack : 0 < rest.length ∧ unacked + 1 = ackInterval) :
    Woven token count unacked (packet :: rest) dialogue final ↔
      ∃ answer later, dialogue = .hear packet ::
          .say (readAck (numberAt count) token (window (rest.length + 1))) :: .hear answer :: later ∧
        Woven token (count + 1) 0 rest later final := by
  simp only [Woven, Paced, if_pos hack]
  constructor
  · rintro ⟨_, later, _, _, rfl, ⟨⟨answer, rfl⟩, rfl, rfl⟩, hlater⟩
    exact ⟨answer, later, rfl, hlater⟩
  · rintro ⟨answer, later, rfl, hlater⟩
    exact ⟨_, later, _, _, rfl, ⟨⟨answer, rfl⟩, rfl, rfl⟩, hlater⟩

theorem woven_cons (hack : ¬ (0 < rest.length ∧ unacked + 1 = ackInterval)) :
    Woven token count unacked (packet :: rest) dialogue final ↔
      ∃ later, dialogue = .hear packet :: later ∧
        Woven token count (unacked + 1) rest later final := by
  simp only [Woven, Paced, if_neg hack]
  constructor
  · rintro ⟨_, later, _, _, rfl, ⟨rfl, rfl, rfl⟩, hlater⟩
    exact ⟨later, rfl, hlater⟩
  · rintro ⟨later, rfl, hlater⟩
    exact ⟨_, later, _, _, rfl, ⟨rfl, rfl, rfl⟩, hlater⟩

end Woven

/-- Packets are received in the dialogues in which the host takes a stream that they are spread over,
with an acknowledgement for what is left behind each fifty of them. -/
theorem woven_iff {token : UInt8} {start total : Nat} {ack : Nat → Report}
    (hack : ∀ i, ack i = readAck (numberAt (start + i)) token (window (total + 1 - 50 * i)))
    (packets : List Report) {final : Nat} :
    ∀ (fifties unacked : Nat) {dialogue : List Turn},
      (packets ≠ [] → unacked < ackInterval) → unacked ≤ ackInterval →
      50 * fifties + unacked + packets.length = total →
      (Woven token (start + 1 + fifties) unacked packets dialogue final ↔
        ∃ stream, Spread unacked packets stream ∧
          dialogue = exchanges ack (51 * fifties + unacked) stream ∧
          start + 1 + fifties + pauses unacked packets.length = final) := by
  -- fifty packets without an acknowledgement stand only at the end, where none is due any more
  induction packets with
  | nil =>
    intro fifties unacked dialogue _ hunacked _
    simp only [Woven, spread_nil hunacked, List.length_nil, pauses_zero hunacked, exists_eq_left]
    rfl
  | cons packet rest ih =>
    intro fifties unacked dialogue hunacked _ htotal
    have hunacked := hunacked (List.cons_ne_nil _ _)
    rw [List.length_cons] at htotal
    simp only [spread_cons hunacked, List.length_cons, pauses_succ]
    by_cases hpause : 0 < rest.length ∧ unacked + 1 = ackInterval
    · have hfifty : unacked + 1 = 50 := hpause.2
      have hcount : start + (fifties + 1) = start + 1 + fifties := by omega
      have hleft : total + 1 - 50 * (fifties + 1) = rest.length + 1 := by omega
      have hnext : start + 1 + fifties + (pauses 0 rest.length + 1) =
          start + 1 + (fifties + 1) + pauses 0 rest.length := by omega
      have hrest (later : List Turn) := @ih (fifties + 1) 0 later (fun _ => by decide) (by decide)
        (by omega)
      rw [woven_cons_ack hpause, hpause.2]
      simp only [spread_ackInterval hpause.1, pauses_ackInterval hpause.1, hnext]
      constructor
      · rintro ⟨answer, later, rfl, hlater⟩
        obtain ⟨stream, hspread, rfl, rfl⟩ := (hrest later).1 hlater
        refine ⟨packet :: answer :: stream, ⟨_, rfl, answer, stream, rfl, hspread⟩, ?_, rfl⟩
        rw [exchanges_packet fifties hunacked, hpause.2, exchanges_answer, hack, hcount, hleft]
        rfl
      · rintro ⟨_, ⟨_, rfl, answer, stream, rfl, hspread⟩, rfl, rfl⟩
        refine ⟨answer, _, ?_, (hrest _).2 ⟨stream, hspread, rfl, rfl⟩⟩
        rw [exchanges_packet fifties hunacked, hpause.2, exchanges_answer, hack, hcount, hleft]
        rfl
    · have hmore : rest ≠ [] → unacked + 1 < ackInterval := by
        intro hrest
        have := List.length_pos_iff.2 hrest
        omega
      have hrest (later : List Turn) := @ih fifties (unacked + 1) later hmore hunacked (by omega)
      rw [woven_cons hpause]
      constructor
      · rintro ⟨later, rfl, hlater⟩
        obtain ⟨stream, hspread, rfl, rfl⟩ := (hrest later).1 hlater
        refine ⟨packet :: stream, ⟨stream, rfl, hspread⟩, ?_, rfl⟩
        rw [exchanges_packet fifties hunacked]
      · rintro ⟨_, ⟨stream, rfl, hspread⟩, rfl, rfl⟩
        refine ⟨_, ?_, (hrest _).2 ⟨stream, hspread, rfl, rfl⟩⟩
        rw [exchanges_packet fifties hunacked]

end UniversalRemote.FileTransfer
