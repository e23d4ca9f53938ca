import UniversalRemote.Proofs.Link.Dialogue
import UniversalRemote.Proofs.Z.Numbering
/-!
# Waiting for the remote to close a stream

A host that has closed its side of a stream waits for the packet with which the remote closes its own,
for a few packets and no longer than the remote keeps sending. There are five ways for that to go
(`waits_of_takes`): the packet comes, the patience of the host or what the remote sends comes to an
end, or the link fails, or a report is not the packet that is due.
-/

namespace UniversalRemote.Z

open Exchange

/-! ## Packets in sequence -/

/-- A report that carries a packet. It holds all the bytes that it announces, and these are none
behind the header, or enough to name what is answered. -/
structure IsPacket (report : Report) : Prop where
  header : HasHeader report
  whole : (report.headD 0).toNat < report.length
  payload : payloadSize report = 0 ∨ 3 ≤ payloadSize report

def nextNumber (packet : Report) : UInt8 :=
  packet.getD 2 0 + UInt8.ofNat (payloadSize packet) +
    if flagged packet (synFlag ||| finFlag) then 1 else 0

structure IsDue (due : Option UInt8) (report : Report) : Prop extends IsPacket report where
  number : ∀ number, due = some number → report.getD 2 0 = number

def InSequence : Option UInt8 → List Report → Prop
  | _, [] => True
  | due, packet :: rest => IsDue due packet ∧ InSequence (some (nextNumber packet)) rest

def dueBehind : Option UInt8 → List Report → Option UInt8
  | due, [] => due
  | _, packet :: rest => dueBehind (some (nextNumber packet)) rest

/-- Why a report is not the packet that is due. -/
inductive Rejects (due : Option UInt8) (report : Report) : ProtocolError → Prop
  | headless (h : ¬ HasHeader report) : Rejects due report (.shortPacket 4 report.length)
  | misnumbered {number : UInt8} (h : HasHeader report) (hdue : due = some number)
      (hnumber : report.getD 2 0 ≠ number) :
      Rejects due report (.sequenceMismatch number (report.getD 2 0))
  | cut (h : HasHeader report) (hcut : report.length ≤ (report.headD 0).toNat) :
      Rejects due report (.shortPacket ((report.headD 0).toNat + 1) report.length)
  | nameless (h : HasHeader report) (hpayload : payloadSize report = 1 ∨ payloadSize report = 2) :
      Rejects due report (.malformed "truncated stream payload")

theorem inSequence_append {due : Option UInt8} {front rest : List Report} :
    InSequence due (front ++ rest) ↔ InSequence due front ∧ InSequence (dueBehind due front) rest := by
  induction front generalizing due with
  | nil => exact ⟨fun h => ⟨trivial, h⟩, And.right⟩
  | cons packet front ih => exact (and_congr_right fun _ => ih).trans and_assoc.symm

theorem Rejects.not_isDue {due : Option UInt8} {report : Report} {cause : ProtocolError}
    (h : Rejects due report cause) : ¬ IsDue due report := by
  intro hdue
  cases h with
  | headless hheader => exact hheader hdue.header
  | misnumbered _ hsome hnumber => exact hnumber (hdue.number _ hsome)
  | cut _ hcut => exact absurd hdue.whole (Nat.not_lt.2 hcut)
  | nameless _ hpayload =>
    have := hdue.payload
    omega

/-! ## What a stream takes in -/

/-- A stream behind another one that has taken in a packet. -/
structure Behind (stream : Stream) (packet : Report) (after : Stream) : Prop where
  opened : after.opened = stream.opened
  ack : after.ack = packet.getD 3 0
  consumed : after.consumed = nextNumber packet
  due : after.due = some (nextNumber packet)

theorem absorb_headless (stream : Stream) {report : Report} (h : ¬ HasHeader report) :
    stream.absorb report = .error (.shortPacket 4 report.length) := by
  match report with
  | [] | [_] | [_, _] | [_, _, _] => rfl
  | length :: flags :: seq :: ack :: rest =>
    have hlength : length < 3 := Decidable.byContradiction fun hnot => h (hasHeader_cons.2 hnot)
    exact (Stream.absorb_eq _ _).trans (if_pos hlength)

theorem ofReport_cases {report : Report} (h : HasHeader report) :
    (IsPacket report ∧ ∃ packet, Packet.ofReport report = .ok packet) ∨
      ∃ cause, Packet.ofReport report = .error cause ∧ ∀ due, Rejects due report cause := by
  unfold Packet.ofReport
  by_cases hcut : report.length < (report.headD 0).toNat + 1
  · exact .inr ⟨_, if_pos hcut, fun _ => .cut h (by omega)⟩
  have hwhole : (report.headD 0).toNat < report.length := by omega
  have hsize : ((report.take ((report.headD 0).toNat + 1)).drop 4).length = payloadSize report := by
    rw [List.length_drop, List.length_take, payloadSize]
    omega
  rw [if_neg hcut]
  generalize (report.take ((report.headD 0).toNat + 1)).drop 4 = content at hsize
  match content with
  | [] => exact .inl ⟨⟨h, hwhole, .inl hsize.symm⟩, _, rfl⟩
  | [_] => exact .inr ⟨_, rfl, fun _ => .nameless h (.inl hsize.symm)⟩
  | [_, _] => exact .inr ⟨_, rfl, fun _ => .nameless h (.inr hsize.symm)⟩
  | _ :: _ :: _ :: body =>
    refine .inl ⟨⟨h, hwhole, .inr ?_⟩, _, rfl⟩
    rw [← hsize]
    exact Nat.le_add_left 3 body.length

/-- A stream takes in just the packet that is due. -/
theorem absorb_ofReport_cases (stream : Stream) (report : Report) :
    (IsDue stream.due report ∧ ∃ packet after, stream.absorb report = .ok after ∧
      Packet.ofReport report = .ok packet ∧ packet.flags = report.getD 1 0 ∧
      Behind stream report after) ∨
    ∃ cause, Rejects stream.due report cause ∧ (stream.absorb report = .error cause ∨
      ∃ after, stream.absorb report = .ok after ∧ Packet.ofReport report = .error cause) := by
  rcases absorb_cases stream report with
    ⟨hheader, hnumber, after, habsorb, hopened, hack, hconsumed, hdue⟩ | ⟨cause, habsorb, hcause⟩
  · rcases ofReport_cases hheader with ⟨hpacket, packet, hread⟩ | ⟨cause, hread, hrejects⟩
    · exact .inl ⟨⟨hpacket, hnumber⟩, packet, after, habsorb, hread, flags_ofReport hread,
        ⟨hopened, hack, hconsumed, hdue.trans (congrArg some hconsumed)⟩⟩
    · exact .inr ⟨cause, hrejects _, .inr ⟨after, habsorb, hread⟩⟩
  · refine .inr ⟨cause, ?_, .inl habsorb⟩
    by_cases hheader : HasHeader report
    · obtain ⟨number, hdue, hnumber, rfl⟩ := hcause hheader
      exact .misnumbered hheader hdue hnumber
    · rw [absorb_headless stream hheader] at habsorb
      cases habsorb
      exact .headless hheader

theorem takes_attempt_receivePacket {stream : Stream} {timeout : Nat} {dialogue : List Turn}
    {result : Except (Halt RemoteError) (Except RemoteError (Packet × Stream))}
    (h : (attempt (Channel.receivePacket stream timeout) :
      Exchange RemoteError _).run.Takes dialogue result) :
    (∃ cause, dialogue = [.read (.error cause)] ∧ result = .ok (.error (.link cause))) ∨
    (∃ report cause, dialogue = [.hear report] ∧ Rejects stream.due report cause ∧
      result = .ok (.error (.protocol cause))) ∨
    ∃ report packet after, dialogue = [.hear report] ∧ IsDue stream.due report ∧
      packet.flags = report.getD 1 0 ∧ Behind stream report after ∧
      result = .ok (.ok (packet, after)) := by
  obtain ⟨cause | report, rest, rfl, hrest⟩ := h
  · obtain ⟨rfl, rfl⟩ := hrest
    exact .inl ⟨cause, rfl, rfl⟩
  change Program.Takes (((check (stream.absorb report)).run.bind _).bind _) rest result at hrest
  refine .inr ?_
  rcases absorb_ofReport_cases stream report with
    ⟨hdue, packet, after, habsorb, hread, hflags, hbehind⟩ |
    ⟨cause, hrejects, habsorb | ⟨after, habsorb, hread⟩⟩
  · rw [habsorb] at hrest
    change Program.Takes (((check (Packet.ofReport report)).run.bind _).bind _) rest result at hrest
    rw [hread] at hrest
    obtain ⟨rfl, rfl⟩ := hrest
    exact .inr ⟨report, packet, after, rfl, hdue, hflags, hbehind, rfl⟩
  · rw [habsorb] at hrest
    obtain ⟨rfl, rfl⟩ := hrest
    exact .inl ⟨report, cause, rfl, hrejects, rfl⟩
  · rw [habsorb] at hrest
    change Program.Takes (((check (Packet.ofReport report)).run.bind _).bind _) rest result at hrest
    rw [hread] at hrest
    obtain ⟨rfl, rfl⟩ := hrest
    exact .inl ⟨report, cause, rfl, hrejects, rfl⟩

/-! ## Waiting for the remote -/

/-- Packets in sequence that leave the remote's side of the stream open. -/
structure Idle (due : Option UInt8) (packets : List Report) : Prop where
  inSequence : InSequence due packets
  unclosed : ∀ packet ∈ packets, ¬ flagged packet finFlag

/-- How the wait for the packet that closes the remote's side can go: what is heard meanwhile, which
are no more reads than given, and what comes of it. -/
inductive Waits (reads : Nat) (stream : Stream) :
    List (Except LinkError Report) → Except (Halt RemoteError) (Option Stream) → Prop
  | exhausted {packets : List Report} (hidle : Idle stream.due packets)
      (hlength : packets.length = reads) : Waits reads stream (packets.map .ok) (.ok none)
  | silent {packets : List Report} {cause : LinkError} (hidle : Idle stream.due packets)
      (hlength : packets.length < reads) (hlate : cause.timedOut = true) :
      Waits reads stream (packets.map .ok ++ [.error cause]) (.ok none)
  | failed {packets : List Report} {cause : LinkError} (hidle : Idle stream.due packets)
      (hlength : packets.length < reads) (hprompt : cause.timedOut = false) :
      Waits reads stream (packets.map .ok ++ [.error cause]) (.error (.failed (.link cause)))
  | rejected {packets : List Report} {report : Report} {cause : ProtocolError}
      (hidle : Idle stream.due packets) (hlength : packets.length < reads)
      (hrejects : Rejects (dueBehind stream.due packets) report cause) :
      Waits reads stream (packets.map .ok ++ [.ok report]) (.error (.failed (.protocol cause)))
  | closed {packets : List Report} {closing : Report} {after : Stream}
      (hidle : Idle stream.due packets) (hlength : packets.length < reads)
      (hdue : IsDue (dueBehind stream.due packets) closing) (hfin : flagged closing finFlag)
      (hafter : Behind stream closing after) :
      Waits reads stream (packets.map .ok ++ [.ok closing]) (.ok (some after))

section Waits

variable {reads : Nat} {stream after : Stream} {packet : Report} {packets : List Report}
  {heard : List (Except LinkError Report)}

theorem idle_nil {due : Option UInt8} : Idle due [] :=
  ⟨trivial, fun _ hmem => nomatch hmem⟩

theorem Idle.cons {due : Option UInt8} (h : Idle (some (nextNumber packet)) packets)
    (hdue : IsDue due packet) (hopen : ¬ flagged packet finFlag) : Idle due (packet :: packets) :=
  ⟨⟨hdue, h.inSequence⟩, List.forall_mem_cons.2 ⟨hopen, h.unclosed⟩⟩

/-- A wait that goes on behind a packet which leaves the stream open. -/
theorem Waits.cons {result : Except (Halt RemoteError) (Option Stream)}
    (h : Waits reads after heard result) (hbehind : Behind stream packet after)
    (hdue : IsDue stream.due packet) (hopen : ¬ flagged packet finFlag) :
    Waits (reads + 1) stream (.ok packet :: heard) result := by
  have hfront {packets : List Report} (hidle : Idle after.due packets) :
      Idle stream.due (packet :: packets) := by
    rw [hbehind.due] at hidle
    exact hidle.cons hdue hopen
  have hnext (packets : List Report) :
      dueBehind after.due packets = dueBehind stream.due (packet :: packets) := by
    rw [hbehind.due]
    rfl
  cases h with
  | exhausted hidle hlength => exact .exhausted (hfront hidle) (congrArg (· + 1) hlength)
  | silent hidle hlength hlate => exact .silent (hfront hidle) (Nat.succ_lt_succ hlength) hlate
  | failed hidle hlength hprompt => exact .failed (hfront hidle) (Nat.succ_lt_succ hlength) hprompt
  | rejected hidle hlength hrejects =>
    exact .rejected (hfront hidle) (Nat.succ_lt_succ hlength) (hnext _ ▸ hrejects)
  | closed hidle hlength hclosing hfin hafter =>
    exact .closed (hfront hidle) (Nat.succ_lt_succ hlength) (hnext _ ▸ hclosing) hfin
      ⟨hafter.opened.trans hbehind.opened, hafter.ack, hafter.consumed, hafter.due⟩

theorem waits_of_takes {dialogue : List Turn}
    {result : Except (Halt RemoteError) (Option Stream)}
    (h : (Channel.awaitClosing reads stream).run.Takes dialogue result) :
    ∃ heard, dialogue = heard.map Turn.read ∧ Waits reads stream heard result := by
  induction reads generalizing stream dialogue with
  | zero =>
    obtain ⟨rfl, rfl⟩ := h
    exact ⟨[], rfl, .exhausted idle_nil rfl⟩
  | succ reads ih =>
    rw [Channel.awaitClosing] at h
    have hroom : ([] : List Report).length < reads + 1 := Nat.succ_pos reads
    rcases takes_bind.1 h with ⟨halt, hattempt, rfl⟩ | ⟨outcome, first, rest, rfl, hattempt, hrest⟩
    · rcases takes_attempt_receivePacket hattempt with
        ⟨_, _, hresult⟩ | ⟨_, _, _, _, hresult⟩ | ⟨_, _, _, _, _, _, _, hresult⟩
      all_goals cases hresult
    · rcases takes_attempt_receivePacket hattempt with ⟨cause, rfl, hresult⟩ |
        ⟨report, cause, rfl, hrejects, hresult⟩ |
        ⟨report, packet, after, rfl, hdue, hflags, hbehind, hresult⟩
      · cases hresult
        cases hlate : cause.timedOut with
        | true =>
          simp only [RemoteError.timedOut, hlate, if_true] at hrest
          obtain ⟨rfl, rfl⟩ := hrest
          exact ⟨[.error cause], rfl, .silent idle_nil hroom hlate⟩
        | false =>
          simp only [RemoteError.timedOut, hlate, Bool.false_eq_true, if_false] at hrest
          obtain ⟨rfl, rfl⟩ := hrest
          exact ⟨[.error cause], rfl, .failed idle_nil hroom hlate⟩
      · cases hresult
        obtain ⟨rfl, rfl⟩ := hrest
        exact ⟨[.ok report], rfl, .rejected idle_nil hroom hrejects⟩
      · cases hresult
        by_cases hfin : packet.flags &&& finFlag ≠ 0
        · simp only [if_pos hfin] at hrest
          obtain ⟨rfl, rfl⟩ := hrest
          refine ⟨[.ok report], rfl, .closed idle_nil hroom hdue ?_ hbehind⟩
          rw [flagged, ← hflags]
          exact bne_iff_ne.2 hfin
        · simp only [if_neg hfin] at hrest
          obtain ⟨heard, rfl, hwaits⟩ := ih hrest
          refine ⟨.ok report :: heard, rfl, hwaits.cons hbehind hdue ?_⟩
          rw [flagged, ← hflags, bne_iff_ne]
          exact hfin

def received (heard : List (Except LinkError Report)) : List Report :=
  heard.filterMap Except.toOption

/-- One of the packets that are heard in sequence closes the remote's side. -/
def Closes (due : Option UInt8) (heard : List (Except LinkError Report)) (closing : Report) : Prop :=
  ∃ packets others, received heard = packets ++ closing :: others ∧
    InSequence due (packets ++ [closing]) ∧ flagged closing finFlag

/-- A write that succeeds, or a read that does or for which there is nothing in time. -/
def Tolerable : Turn → Prop
  | .wrote _ outcome => outcome = .ok ()
  | .read (.ok _) => True
  | .read (.error cause) => cause.timedOut

theorem received_map (packets : List Report) : received (packets.map .ok) = packets := by
  rw [received, List.filterMap_map]
  exact List.filterMap_some

theorem received_concat (packets : List Report) (outcome : Except LinkError Report) :
    received (packets.map .ok ++ [outcome]) = packets ++ outcome.toOption.toList := by
  rw [received, List.filterMap_append, ← received, received_map]
  cases outcome <;> rfl

section Outcomes

variable {result : Except (Halt RemoteError) (Option Stream)}

theorem Waits.length_le (h : Waits reads stream heard result) : heard.length ≤ reads := by
  cases h with
  | exhausted _ hlength =>
    rw [List.length_map]
    exact Nat.le_of_eq hlength
  | silent _ hlength | failed _ hlength | rejected _ hlength | closed _ hlength =>
    rw [List.length_append, List.length_map]
    exact hlength

theorem Waits.exists_closing (h : Waits reads stream heard (.ok (some after))) :
    ∃ closing, Closes stream.due heard closing ∧ Behind stream closing after := by
  cases h with
  | @closed packets closing _ hidle _ hdue hfin hafter =>
    refine ⟨closing, ⟨packets, [], received_concat _ _, ?_, hfin⟩, hafter⟩
    exact inSequence_append.2 ⟨hidle.inSequence, hdue, trivial⟩

theorem Waits.not_closes (h : Waits reads stream heard result)
    (hopen : ∀ after, result ≠ .ok (some after)) (closing : Report) :
    ¬ Closes stream.due heard closing := by
  rintro ⟨front, others, hheard, hsequence, hfin⟩
  cases h with
  | exhausted hidle =>
    rw [received_map] at hheard
    exact hidle.unclosed closing (hheard ▸ by simp) hfin
  | silent hidle | failed hidle =>
    rw [received_concat, Except.toOption, Option.toList_none, List.append_nil] at hheard
    exact hidle.unclosed closing (hheard ▸ by simp) hfin
  | rejected hidle _ hrejects =>
    rw [received_concat] at hheard
    rcases others.eq_nil_or_concat with rfl | ⟨others, last, rfl⟩
    · obtain ⟨rfl, hlast⟩ := List.append_inj' hheard rfl
      cases hlast
      exact hrejects.not_isDue (inSequence_append.1 hsequence).2.1
    · rw [List.concat_eq_append, ← List.cons_append, ← List.append_assoc] at hheard
      exact hidle.unclosed closing ((List.append_inj' hheard rfl).1 ▸ by simp) hfin
  | closed => exact hopen _ rfl

theorem tolerable_packets : ∀ outcome ∈ packets.map Except.ok, Tolerable (.read outcome) := by
  intro outcome hmem
  obtain ⟨packet, -, rfl⟩ := List.mem_map.1 hmem
  trivial

theorem tolerable_concat {outcome : Except LinkError Report} :
    (∀ other ∈ packets.map Except.ok ++ [outcome], Tolerable (.read other)) ↔
      Tolerable (.read outcome) := by
  rw [List.forall_mem_append, List.forall_mem_singleton]
  exact and_iff_right tolerable_packets

/-- The wait ends well just if nothing is heard but packets in sequence, or nothing in time. -/
theorem Waits.ok_iff (h : Waits reads stream heard result) :
    (∃ outcome, result = .ok outcome) ↔ (∀ outcome ∈ heard, Tolerable (.read outcome)) ∧
      InSequence stream.due (received heard) := by
  cases h with
  | exhausted hidle =>
    rw [received_map]
    exact iff_of_true ⟨_, rfl⟩ ⟨tolerable_packets, hidle.inSequence⟩
  | silent hidle _ hlate =>
    rw [tolerable_concat, received_concat, Except.toOption, Option.toList_none, List.append_nil]
    exact iff_of_true ⟨_, rfl⟩ ⟨hlate, hidle.inSequence⟩
  | failed hidle _ hprompt =>
    rw [tolerable_concat]
    exact iff_of_false nofun fun ⟨hlate, _⟩ => Bool.eq_false_iff.1 hprompt hlate
  | rejected hidle _ hrejects =>
    rw [received_concat]
    refine iff_of_false nofun fun ⟨_, hsequence⟩ => ?_
    exact hrejects.not_isDue (inSequence_append.1 hsequence).2.1
  | closed hidle _ hdue =>
    rw [tolerable_concat, received_concat]
    exact iff_of_true ⟨_, rfl⟩ ⟨trivial, inSequence_append.2 ⟨hidle.inSequence, hdue, trivial⟩⟩

theorem Waits.of_none (h : Waits reads stream heard (.ok none)) :
    heard.length = reads ∨
      ∃ cause, cause.timedOut = true ∧ heard.getLast? = some (.error cause) := by
  cases h with
  | exhausted _ hlength => exact .inl ((List.length_map _).trans hlength)
  | silent _ _ hlate => exact .inr ⟨_, hlate, List.getLast?_concat⟩

theorem Waits.of_error {halt : Halt RemoteError} (h : Waits reads stream heard (.error halt)) :
    (∃ front cause, halt = .failed (.link cause) ∧ cause.timedOut = false ∧
      heard = front ++ [.error cause]) ∨
    ∃ packets report cause, halt = .failed (.protocol cause) ∧
      heard = packets.map .ok ++ [.ok report] ∧
        Rejects (dueBehind stream.due packets) report cause := by
  cases h with
  | failed _ _ hprompt => exact .inl ⟨_, _, rfl, hprompt, rfl⟩
  | rejected _ _ hrejects => exact .inr ⟨_, _, _, rfl, rfl, hrejects⟩

end Outcomes

end Waits

end UniversalRemote.Z
