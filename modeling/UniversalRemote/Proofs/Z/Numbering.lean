import Mathlib.Algebra.Ring.Nat
import UniversalRemote.Z.Hid
import UniversalRemote.Proofs.Link.Outcome
/-!
# The numbers of stream packets

What the next packet of the host has to be follows from what has gone over the link
(`NextPacket`): it acknowledges the number of the first packet received, all bytes of the packets
received, and one for each of them that opens or closes the stream (`acknowledgement`). `Tracks`
says that a stream has kept count of this; it holds behind each packet that is sent
(`Tracks.wrote`) or received (`Awaits.received`).
-/

namespace UniversalRemote.Z

/-! ## The history of a stream -/

/-- The packets sent on the stream: what was written behind the request to open it. -/
def sent (past : List Step) : List Report :=
  (past.filterMap Step.written?).tail

/-- The packets received on the stream: what was read behind the consent to open it. -/
def taken (past : List Step) : List Report :=
  (past.filterMap Step.received?).tail

/-- Whether a packet has a flag, or one of several. -/
def flagged (packet : Report) (flag : UInt8) : Bool :=
  packet.getD 1 0 &&& flag != 0

def payloadSize (packet : Report) : Nat :=
  (packet.headD 0).toNat - 3

/-- What is to be acknowledged behind some packets: the number of the first one, the bytes that they
carry, and one more for each that opens or closes the stream. -/
def acknowledgement (packets : List Report) : UInt8 :=
  UInt8.ofNat (((packets.headD []).getD 2 0).toNat + (packets.map payloadSize).sum +
    packets.countP (flagged · (synFlag ||| finFlag)))

/-- A report that is long enough for the header of a packet. -/
def HasHeader (report : Report) : Prop :=
  4 ≤ report.length ∧ 3 ≤ report.headD 0

/-- Each packet has a header, and each one behind the first has the number that those before it
call for. -/
def InOrder (packets : List Report) : Prop :=
  ∀ front packet rest, packets = front ++ packet :: rest →
    HasHeader packet ∧ (front ≠ [] → packet.getD 2 0 = acknowledgement front)

/-- The first packet received opened the stream. -/
def Opened (past : List Step) : Prop :=
  ∃ first, (taken past).head? = some first ∧ flagged first synFlag

/-- The stream has been torn down: behind the packet that closes it, another one was sent. -/
def TornDown (past : List Step) : Prop :=
  ∃ closing ∈ (sent past).dropLast, flagged closing finFlag

/-- A packet received on the open stream whose number is not the one called for. -/
structure Misnumbered (past : List Step) (report : Report) : Prop where
  begun : taken past ≠ []
  header : HasHeader report
  number : report.getD 2 0 ≠ acknowledgement (taken past)
  standing : ¬ TornDown past

/-- What the next packet on the stream has to be. -/
structure NextPacket (past : List Step) (packet : Report) : Prop where
  size : packet.length = (packet.headD 0).toNat + 1
  opened : Opened past
  accepted : InOrder (taken past)
  acknowledges : flagged packet ackFlag ∧ packet.getD 3 0 = acknowledgement (taken past)
  number : ∃ last, (taken past).getLast? = some last ∧ packet.getD 2 0 = last.getD 3 0
  opens : flagged packet synFlag ↔ sent past = []
  /-- The packet that closes the stream carries nothing, and is the only one of its kind. -/
  closes : flagged packet finFlag → packet.length = 4 ∧ ∀ p ∈ sent past, ¬ flagged p finFlag
  /-- Behind it there is one more packet, which carries nothing either. -/
  last : ∀ closing ∈ sent past, flagged closing finFlag →
    (sent past).getLast? = some closing ∧ packet.length = 4

/-- The request to open a stream comes first, and all else that is written are packets on it. -/
def Numbered (past : List Step) (report : Report) : Prop :=
  (past.filterMap Step.written? = [] → report = datagram 0x40 []) ∧
    (past.filterMap Step.written? ≠ [] → NextPacket past report)

/-! ## Counting -/

theorem acknowledgement_concat {packets : List Report} {packet : Report}
    (h : packets ≠ [] → packet.getD 2 0 = acknowledgement packets) :
    acknowledgement (packets ++ [packet]) = packet.getD 2 0 + UInt8.ofNat (payloadSize packet) +
      if flagged packet (synFlag ||| finFlag) then 1 else 0 := by
  have hcount : UInt8.ofNat ([packet].countP (flagged · (synFlag ||| finFlag))) =
      if flagged packet (synFlag ||| finFlag) then 1 else 0 := by
    rw [List.countP_singleton]
    split <;> rfl
  have hsize : UInt8.ofNat (([packet].map payloadSize).sum) = UInt8.ofNat (payloadSize packet) := by
    simp
  rw [← hcount, ← hsize]
  by_cases hnil : packets = []
  · rw [hnil, List.nil_append, acknowledgement, UInt8.ofNat_add, UInt8.ofNat_add,
      UInt8.ofNat_toNat]
    rfl
  · have hhead : (packets ++ [packet]).headD [] = packets.headD [] := by
      obtain ⟨first, rest, rfl⟩ := List.exists_cons_of_ne_nil hnil
      rfl
    rw [h hnil, acknowledgement, acknowledgement, hhead, List.map_append, List.sum_append,
      List.countP_append]
    simp only [UInt8.ofNat_add]
    ac_rfl

theorem inOrder_nil : InOrder [] := by
  intro front packet rest h
  simp at h

theorem InOrder.concat {packets : List Report} {packet : Report} (h : InOrder packets)
    (hheader : HasHeader packet)
    (hnumber : packets ≠ [] → packet.getD 2 0 = acknowledgement packets) :
    InOrder (packets ++ [packet]) := by
  intro front other rest heq
  rcases rest.eq_nil_or_concat with rfl | ⟨rest, last, rfl⟩
  · obtain ⟨rfl, hlast⟩ := List.append_inj' heq rfl
    cases hlast
    exact ⟨hheader, hnumber⟩
  · rw [List.concat_eq_append, ← List.cons_append, ← List.append_assoc] at heq
    exact h front other rest (List.append_inj' heq rfl).1

/-! ## What a packet does to a stream -/

theorem hasHeader_cons {length flags seq ack : UInt8} {rest : List UInt8} :
    HasHeader (length :: flags :: seq :: ack :: rest) ↔ ¬ length < 3 := by
  simp [HasHeader]

theorem ofNat_payload {length : UInt8} (h : ¬ length < 3) :
    UInt8.ofNat (length.toNat - 3) = length - 3 := by
  have hle : 3 ≤ length := UInt8.not_lt.1 h
  apply UInt8.toNat_inj.1
  rw [UInt8.toNat_sub_of_le _ _ hle, UInt8.toNat_ofNat']
  have hbound := length.toNat_lt
  have hthree : (3 : UInt8).toNat = 3 := rfl
  omega

/-- A stream takes in a packet that has a header and the number that is due. -/
theorem absorb_cases (stream : Stream) (report : Report) :
    (HasHeader report ∧ (∀ due, stream.due = some due → report.getD 2 0 = due) ∧
      ∃ after, stream.absorb report = .ok after ∧ after.opened = stream.opened ∧
        after.ack = report.getD 3 0 ∧
        after.consumed = report.getD 2 0 + UInt8.ofNat (payloadSize report) +
          (if flagged report (synFlag ||| finFlag) then 1 else 0) ∧
        after.due = some after.consumed) ∨
    ∃ cause, stream.absorb report = .error cause ∧
      (HasHeader report → ∃ due, stream.due = some due ∧ report.getD 2 0 ≠ due ∧
        cause = .sequenceMismatch due (report.getD 2 0)) := by
  match report with
  | [] | [_] | [_, _] | [_, _, _] => exact .inr ⟨_, rfl, fun h => absurd h.1 (by simp)⟩
  | length :: flags :: seq :: ack :: rest =>
    by_cases hlength : length < 3
    · exact .inr ⟨_, (Stream.absorb_eq _ _).trans (if_pos hlength), fun h => absurd hlength (hasHeader_cons.1 h)⟩
    · let next : Stream := { stream with seq, ack, flags, payload := length - 3 }
      have hheader : HasHeader (length :: flags :: seq :: ack :: rest) := hasHeader_cons.2 hlength
      have hconsumed : next.consumed = seq + UInt8.ofNat (length.toNat - 3) +
          (if flags &&& (synFlag ||| finFlag) != 0 then 1 else 0) := by
        rw [ofNat_payload hlength]
        simp only [next, Stream.consumed, bne_iff_ne, ne_eq, ite_not]
        split
        · exact (UInt8.add_zero _).symm
        · rfl
      cases hdue : stream.due with
      | none =>
        refine .inl ⟨hheader, fun due h => (nomatch h), { next with due := some next.consumed }, ?_,
          rfl, rfl, hconsumed, rfl⟩
        simp only [Stream.absorb_eq, if_neg hlength, hdue]
        rfl
      | some due =>
        by_cases hseq : seq = due
        · refine .inl ⟨hheader, fun other h => ?_, { next with due := some next.consumed }, ?_, rfl,
            rfl, hconsumed, rfl⟩
          · cases h
            exact hseq
          · simp only [Stream.absorb_eq, if_neg hlength, hdue, if_pos hseq]
            rfl
        · refine .inr ⟨.sequenceMismatch due seq, ?_, fun _ => ⟨due, rfl, hseq, rfl⟩⟩
          simp only [Stream.absorb_eq, if_neg hlength, hdue, if_neg hseq]

theorem flags_ofReport {report : Report} {packet : Packet}
    (h : Packet.ofReport report = .ok packet) : packet.flags = report.getD 1 0 := by
  rw [Packet.ofReport] at h
  split at h
  · cases h
  · split at h <;> cases h <;> rfl

/-! ## Steps and the history -/

variable {past : List Step}

theorem sent_wrote (h : past.filterMap Step.written? ≠ []) (report : Report)
    (outcome : Except LinkError Unit) :
    sent (past ++ [.wrote report outcome]) = sent past ++ [report] := by
  rw [sent, List.filterMap_append, List.tail_append_of_ne_nil h]
  rfl

theorem sent_read (timeout : Nat) (outcome : Except LinkError Report) :
    sent (past ++ [.read timeout outcome]) = sent past := by
  rw [sent, List.filterMap_append]
  exact congrArg List.tail (List.append_nil _)

theorem sent_told (event : Event) : sent (past ++ [.told event]) = sent past := by
  rw [sent, List.filterMap_append]
  exact congrArg List.tail (List.append_nil _)

theorem taken_read (h : past.filterMap Step.received? ≠ []) (timeout : Nat) (report : Report) :
    taken (past ++ [.read timeout (.ok report)]) = taken past ++ [report] := by
  rw [taken, List.filterMap_append, List.tail_append_of_ne_nil h]
  rfl

theorem taken_wrote (report : Report) (outcome : Except LinkError Unit) :
    taken (past ++ [.wrote report outcome]) = taken past := by
  rw [taken, List.filterMap_append]
  exact congrArg List.tail (List.append_nil _)

theorem taken_told (event : Event) : taken (past ++ [.told event]) = taken past := by
  rw [taken, List.filterMap_append]
  exact congrArg List.tail (List.append_nil _)

theorem Opened.of_taken {later : List Step} {report : Report} (h : Opened past)
    (htaken : taken later = taken past ++ [report]) : Opened later := by
  obtain ⟨first, hfirst, hsyn⟩ := h
  refine ⟨first, ?_, hsyn⟩
  rw [htaken, List.head?_append, hfirst]
  rfl

theorem Opened.wrote (h : Opened past) (report : Report) (outcome : Except LinkError Unit) :
    Opened (past ++ [.wrote report outcome]) := by
  rw [Opened, taken_wrote]
  exact h

/-- No packet that was read was misnumbered, and none was read on a stream torn down. -/
def Clean (past : List Step) : Prop :=
  ∀ before timeout report after, past = before ++ .read timeout (.ok report) :: after →
    ¬ Misnumbered before report ∧ ¬ TornDown before

/-- Why the host may end without an answer: if a packet was misnumbered, because of it, and without
a packet sent behind it. -/
def Excused (past : List Step) (halt : Halt RemoteError) : Prop :=
  ∀ before timeout report after, past = before ++ .read timeout (.ok report) :: after →
    ¬ TornDown before ∧ (Misnumbered before report →
      halt = .failed (.protocol (.sequenceMismatch (acknowledgement (taken before))
        (report.getD 2 0))) ∧ after.filterMap Step.written? = [])

theorem clean_nil : Clean [] := by
  intro before timeout report after h
  simp at h

theorem Clean.excused (h : Clean past) (halt : Halt RemoteError) : Excused past halt :=
  fun before timeout report after heq =>
    have hclean := h before timeout report after heq
    ⟨hclean.2, fun hmisnumbered => absurd hmisnumbered hclean.1⟩

theorem Excused.clean {cause : RemoteError} (h : Excused past (.failed cause))
    (hcause : cause.timedOut) : Clean past := by
  intro before timeout report after heq
  obtain ⟨hstanding, hexcuse⟩ := h before timeout report after heq
  refine ⟨fun hmisnumbered => ?_, hstanding⟩
  have hmismatch := (hexcuse hmisnumbered).1
  cases hmismatch
  exact nomatch hcause

/-- A read that is the last step of some steps or stands before it. -/
theorem read_of_concat {step : Step} {before after : List Step} {timeout : Nat} {report : Report}
    (h : past ++ [step] = before ++ .read timeout (.ok report) :: after) :
    (before = past ∧ step = .read timeout (.ok report) ∧ after = []) ∨
      ∃ rest, after = rest ++ [step] ∧ past = before ++ .read timeout (.ok report) :: rest := by
  rcases after.eq_nil_or_concat with rfl | ⟨rest, last, rfl⟩
  · obtain ⟨rfl, hlast⟩ := List.append_inj' h rfl
    exact .inl ⟨rfl, (List.cons.inj hlast).1, rfl⟩
  · rw [List.concat_eq_append, ← List.cons_append, ← List.append_assoc] at h
    obtain ⟨hpast, hlast⟩ := List.append_inj' h rfl
    rw [List.concat_eq_append, (List.cons.inj hlast).1]
    exact .inr ⟨rest, rfl, hpast⟩

theorem Clean.concat (h : Clean past) {step : Step}
    (hstep : ∀ timeout report, step = .read timeout (.ok report) →
      ¬ Misnumbered past report ∧ ¬ TornDown past) : Clean (past ++ [step]) := by
  intro before timeout report after heq
  rcases read_of_concat heq with ⟨rfl, hread, -⟩ | ⟨rest, -, hpast⟩
  · exact hstep timeout report hread
  · exact h before timeout report rest hpast

theorem Clean.wrote (h : Clean past) (report : Report) (outcome : Except LinkError Unit) :
    Clean (past ++ [.wrote report outcome]) := by
  refine h.concat fun _ _ hread => ?_
  cases hread

theorem Clean.told (h : Clean past) (event : Event) : Clean (past ++ [.told event]) := by
  refine h.concat fun _ _ hread => ?_
  cases hread

theorem Clean.failedRead (h : Clean past) (timeout : Nat) (cause : LinkError) :
    Clean (past ++ [.read timeout (.error cause)]) := by
  refine h.concat fun _ _ hread => ?_
  cases hread

theorem Clean.excused_mismatch (h : Clean past) (hstanding : ¬ TornDown past) (timeout : Nat)
    (report : Report) :
    Excused (past ++ [.read timeout (.ok report)])
      (.failed (.protocol (.sequenceMismatch (acknowledgement (taken past)) (report.getD 2 0)))) := by
  intro before timeout' other after heq
  rcases read_of_concat heq with ⟨rfl, hread, rfl⟩ | ⟨rest, -, hpast⟩
  · cases hread
    exact ⟨hstanding, fun _ => ⟨rfl, rfl⟩⟩
  · obtain ⟨hnumber, hopen⟩ := h before timeout' other rest hpast
    exact ⟨hopen, fun hmisnumbered => absurd hmisnumbered hnumber⟩

/-! ## Streams that keep count -/

/-- A stream has kept count of what was received, and awaits a packet, be it the first one. -/
structure Awaits (past : List Step) (stream : Stream) : Prop where
  requested : past.filterMap Step.written? ≠ []
  answered : past.filterMap Step.received? ≠ []
  fresh : taken past = [] → stream.due = none
  due : taken past ≠ [] → stream.due = some (acknowledgement (taken past))
  opened : stream.opened ↔ sent past ≠ []
  accepted : InOrder (taken past)
  clean : Clean past
  standing : ¬ TornDown past

/-- A stream has kept count of what was received, and knows what to send next. -/
structure Tracks (past : List Step) (stream : Stream) : Prop extends Awaits past stream where
  consumed : stream.consumed = acknowledgement (taken past)
  last : ∃ last, (taken past).getLast? = some last ∧ stream.ack = last.getD 3 0

variable {stream : Stream}

theorem tornDown_read (timeout : Nat) (outcome : Except LinkError Report) :
    TornDown (past ++ [.read timeout outcome]) ↔ TornDown past := by
  rw [TornDown, sent_read, TornDown]

theorem tornDown_told (event : Event) : TornDown (past ++ [.told event]) ↔ TornDown past := by
  rw [TornDown, sent_told, TornDown]

theorem tornDown_wrote (h : past.filterMap Step.written? ≠ []) (report : Report)
    (outcome : Except LinkError Unit) :
    TornDown (past ++ [.wrote report outcome]) ↔ ∃ closing ∈ sent past, flagged closing finFlag := by
  rw [TornDown, sent_wrote h, List.dropLast_concat]

theorem ne_nil_of_concat {f : Step → Option Report} (h : past.filterMap f ≠ []) (step : Step) :
    (past ++ [step]).filterMap f ≠ [] := by
  rw [List.filterMap_append]
  exact List.append_ne_nil_of_left_ne_nil h _

/-- Behind the request to open a stream and the consent to it, the first packet is awaited. -/
theorem awaits_opening (request consent : Report) (timeout : Nat) :
    Awaits ([.wrote request (.ok ())] ++ [.read timeout (.ok consent)]) {} where
  requested := by simp
  answered := by simp
  fresh _ := rfl
  due hbegun := absurd rfl hbegun
  opened := iff_of_false (by decide) fun hsent => hsent rfl
  accepted := inOrder_nil
  clean := (clean_nil.wrote request (.ok ())).concat fun _ _ _ =>
    ⟨fun hmis => hmis.begun rfl, fun ⟨_, hmem, _⟩ => nomatch hmem⟩
  standing := fun ⟨_, hmem, _⟩ => nomatch hmem

/-- A packet that the stream takes in is counted. -/
theorem Awaits.received (h : Awaits past stream) {report : Report} {after : Stream}
    (habsorb : stream.absorb report = .ok after) (timeout : Nat) :
    Tracks (past ++ [.read timeout (.ok report)]) after := by
  rcases absorb_cases stream report with
    ⟨hheader, hseq, next, hnext, hopened, hack, hconsumed, hdue⟩ | ⟨cause, herror, -⟩
  · obtain rfl : next = after := Except.ok.inj (hnext.symm.trans habsorb)
    have hnumber : taken past ≠ [] → report.getD 2 0 = acknowledgement (taken past) :=
      fun hbegun => hseq _ (h.due hbegun)
    have hcount : next.consumed = acknowledgement (taken past ++ [report]) := by
      rw [hconsumed, acknowledgement_concat hnumber]
    constructor
    · constructor
      · exact ne_nil_of_concat h.requested _
      · exact ne_nil_of_concat h.answered _
      · intro hnil
        rw [taken_read h.answered] at hnil
        exact absurd hnil (by simp)
      · intro _
        rw [hdue, hcount, taken_read h.answered]
      · rw [hopened, sent_read]
        exact h.opened
      · rw [taken_read h.answered]
        exact h.accepted.concat hheader hnumber
      · refine h.clean.concat fun _ _ hread => ?_
        cases hread
        exact ⟨fun hmis => hmis.number (hnumber hmis.begun), h.standing⟩
      · rw [tornDown_read]
        exact h.standing
    · rw [hcount, taken_read h.answered]
    · rw [taken_read h.answered]
      exact ⟨report, List.getLast?_concat, hack⟩
  · rw [herror] at habsorb
    cases habsorb

/-- A packet that the stream does not take in excuses the host. -/
theorem Awaits.refused (h : Awaits past stream) {report : Report} {cause : ProtocolError}
    (habsorb : stream.absorb report = .error cause) (timeout : Nat) :
    Excused (past ++ [.read timeout (.ok report)]) (.failed (.protocol cause)) := by
  -- a packet may be refused for its size alone, which does not make it misnumbered
  by_cases hmis : Misnumbered past report
  · rcases absorb_cases stream report with ⟨-, hseq, -⟩ | ⟨other, herror, hmismatch⟩
    · exact absurd (hseq _ (h.due hmis.begun)) hmis.number
    · obtain rfl : cause = other := Except.error.inj (habsorb.symm.trans herror)
      obtain ⟨due, hdue, -, rfl⟩ := hmismatch hmis.header
      obtain rfl : acknowledgement (taken past) = due :=
        Option.some.inj ((h.due hmis.begun).symm.trans hdue)
      exact h.clean.excused_mismatch h.standing timeout report
  · refine (h.clean.concat fun _ _ hread => ?_).excused _
    cases hread
    exact ⟨hmis, h.standing⟩

/-- What the observer is told does not count. -/
theorem Tracks.told (h : Tracks past stream) (event : Event) :
    Tracks (past ++ [.told event]) stream := by
  constructor
  · constructor
    · exact ne_nil_of_concat h.requested _
    · exact ne_nil_of_concat h.answered _
    · rw [taken_told]
      exact h.fresh
    · rw [taken_told]
      exact h.due
    · rw [sent_told]
      exact h.opened
    · rw [taken_told]
      exact h.accepted
    · exact h.clean.told event
    · rw [tornDown_told]
      exact h.standing
  · rw [taken_told]
    exact h.consumed
  · rw [taken_told]
    exact h.last

/-- A packet that is sent opens the stream, and what was received stays as it is. -/
theorem Tracks.wrote (h : Tracks past stream) {packet : Report} {outcome : Except LinkError Unit}
    (hstanding : ∀ p ∈ sent past, ¬ flagged p finFlag) (extra : UInt8) :
    Tracks (past ++ [.wrote packet outcome]) (stream.header extra).2 := by
  constructor
  · constructor
    · exact ne_nil_of_concat h.requested _
    · exact ne_nil_of_concat h.answered _
    · rw [taken_wrote]
      exact h.fresh
    · rw [taken_wrote]
      exact h.due
    · rw [sent_wrote h.requested]
      simp [Stream.header]
    · rw [taken_wrote]
      exact h.accepted
    · exact h.clean.wrote packet outcome
    · rw [tornDown_wrote h.requested]
      exact fun ⟨closing, hmem, hfin⟩ => hstanding closing hmem hfin
  · rw [taken_wrote]
    exact h.consumed
  · rw [taken_wrote]
    exact h.last

theorem flagged_header (stream : Stream) {extra : UInt8} (hextra : extra = 0 ∨ extra = finFlag)
    (length : UInt8) (rest : List UInt8) :
    flagged (length :: (stream.header extra).1.flags :: rest) ackFlag ∧
      (flagged (length :: (stream.header extra).1.flags :: rest) synFlag ↔ ¬ stream.opened) ∧
      (flagged (length :: (stream.header extra).1.flags :: rest) finFlag ↔ extra = finFlag) := by
  change (stream.header extra).1.flags &&& ackFlag != 0 ∧
    ((stream.header extra).1.flags &&& synFlag != 0 ↔ ¬ stream.opened) ∧
    ((stream.header extra).1.flags &&& finFlag != 0 ↔ extra = finFlag)
  rcases hextra with rfl | rfl <;> cases h : stream.opened <;>
    simp only [Stream.header, h] <;> decide

/-- The header that a stream makes up is that of the next packet. -/
theorem Tracks.nextPacket (h : Tracks past stream)
    (hopened : Opened past) {length extra : UInt8} {content : List UInt8}
    (hlength : length.toNat = content.length + 3)
    (hextra : extra = 0 ∨ extra = finFlag)
    (hcloses : extra = finFlag → content = [] ∧ ∀ p ∈ sent past, ¬ flagged p finFlag)
    (hlast : ∀ closing ∈ sent past, flagged closing finFlag →
      (sent past).getLast? = some closing ∧ content = []) :
    NextPacket past (length :: (stream.header extra).1.flags :: (stream.header extra).1.seq ::
      (stream.header extra).1.ack :: content) := by
  obtain ⟨hack, hopens, hfin⟩ := flagged_header stream hextra length
    ((stream.header extra).1.seq :: (stream.header extra).1.ack :: content)
  obtain ⟨last, htaken, hseq⟩ := h.last
  constructor
  · simp only [List.length_cons, List.headD_cons]
    omega
  · exact hopened
  · exact h.accepted
  · exact ⟨hack, h.consumed⟩
  · exact ⟨last, htaken, hseq⟩
  · rw [hopens, h.opened]
    exact Classical.not_not
  · intro hflag
    obtain ⟨rfl, hnone⟩ := hcloses (hfin.1 hflag)
    exact ⟨rfl, hnone⟩
  · intro closing hmem hflag
    obtain ⟨hbehind, rfl⟩ := hlast closing hmem hflag
    exact ⟨hbehind, rfl⟩

/-- A stream that carries requests. -/
structure Open (past : List Step) (stream : Stream) : Prop extends Tracks past stream where
  begins : Opened past
  unclosed : ∀ p ∈ sent past, ¬ flagged p finFlag

/-- A stream that the host has closed, and the remote may not yet have. -/
structure Closing (past : List Step) (stream : Stream) : Prop extends Tracks past stream where
  begins : Opened past
  closed : ∃ closing, (sent past).getLast? = some closing ∧ flagged closing finFlag

theorem Closing.exists_closed (h : Closing past stream) :
    ∃ closing ∈ sent past, flagged closing finFlag := by
  obtain ⟨closing, hlast, hfin⟩ := h.closed
  exact ⟨closing, List.mem_of_getLast? hlast, hfin⟩

/-- The packet that closes the stream is the last one, until it is answered. -/
theorem Closing.last_of_flagged (h : Closing past stream) {closing : Report}
    (hmem : closing ∈ sent past) (hfin : flagged closing finFlag) :
    (sent past).getLast? = some closing := by
  obtain ⟨last, hlast, -⟩ := h.closed
  obtain ⟨front, hsent⟩ := List.getLast?_eq_some_iff.1 hlast
  rw [hsent] at hmem
  rcases List.mem_append.1 hmem with hfront | hlater
  · refine absurd ⟨closing, ?_, hfin⟩ h.standing
    rwa [hsent, List.dropLast_concat]
  · rw [List.mem_singleton.1 hlater]
    exact hlast

/-- What has gone over the link where a transfer has succeeded: no packet was misnumbered, the host
has closed the stream, and once it was torn down, one report at most was read. -/
structure Finished (past : List Step) : Prop where
  reads : ∀ before timeout report after, past = before ++ .read timeout (.ok report) :: after →
    ¬ Misnumbered before report ∧ (TornDown before → after = [])
  closed : ∃ closing ∈ sent past, flagged closing finFlag

theorem Clean.finished (h : Clean past) (hclosed : ∃ closing ∈ sent past, flagged closing finFlag) :
    Finished past :=
  ⟨fun before timeout report after heq =>
    (h before timeout report after heq).imp_right fun hstanding htorn => absurd htorn hstanding,
    hclosed⟩

theorem TornDown.exists_closed (h : TornDown past) :
    ∃ closing ∈ sent past, flagged closing finFlag := by
  obtain ⟨closing, hmem, hfin⟩ := h
  exact ⟨closing, (List.dropLast_sublist _).subset hmem, hfin⟩

/-- The report that comes once the stream is torn down does not count. -/
theorem Clean.finished_ignored (h : Clean past) (htorn : TornDown past) (timeout : Nat)
    (report : Report) : Finished (past ++ [.read timeout (.ok report)]) := by
  constructor
  · intro before timeout' other after heq
    rcases read_of_concat heq with ⟨rfl, -, rfl⟩ | ⟨rest, -, hpast⟩
    · exact ⟨fun hmis => hmis.standing htorn, fun _ => rfl⟩
    · obtain ⟨hnumber, hstanding⟩ := h before timeout' other rest hpast
      exact ⟨hnumber, fun h => absurd h hstanding⟩
  · rw [sent_read]
    exact htorn.exists_closed

/-- What can be said of a run that reads a region or installs an image. -/
structure Conforms (run : Run σ (Except (Halt RemoteError) α)) : Prop where
  numbered : Program.Obeys Numbered [] run.trace
  /-- A misnumbered packet ends the run. -/
  rejects : ∀ before timeout report after,
    run.trace = before ++ .read timeout (.ok report) :: after → Misnumbered before report →
      run.result = .error (.failed (.protocol (.sequenceMismatch (acknowledgement (taken before))
        (report.getD 2 0)))) ∧ after.filterMap Step.written? = []
  /-- Once the stream is torn down, any one report is let pass. -/
  ignores : ∀ before timeout report after,
    run.trace = before ++ .read timeout (.ok report) :: after → TornDown before →
      (∃ a, run.result = .ok a) ∧ after = []
  closes : ∀ a, run.result = .ok a → ∃ closing ∈ sent run.trace, flagged closing finFlag

/-- What an exchange concludes holds of its runs. -/
theorem conforms_of_concludes {x : Exchange RemoteError α}
    (h : x.Concludes Numbered Excused (fun later _ => Finished later) []) (device : Device σ)
    (state : σ) : Conforms (x.run.run device state) := by
  obtain ⟨hpost, hobeys⟩ := Program.Ensures.run h device state
  rw [List.nil_append] at hpost
  cases hresult : (x.run.run device state).result with
  | ok a =>
    simp only [hresult] at hpost
    constructor
    · exact hobeys
    · intro before timeout report after heq hmis
      exact absurd hmis (hpost.reads before timeout report after heq).1
    · intro before timeout report after heq htorn
      exact ⟨⟨a, hresult⟩, (hpost.reads before timeout report after heq).2 htorn⟩
    · exact fun _ _ => hpost.closed
  | error halt =>
    simp only [hresult] at hpost
    constructor
    · exact hobeys
    · intro before timeout report after heq hmis
      obtain ⟨hhalt, hwritten⟩ := (hpost before timeout report after heq).2 hmis
      rw [hresult, hhalt]
      exact ⟨rfl, hwritten⟩
    · intro before timeout report after heq htorn
      exact absurd htorn (hpost before timeout report after heq).1
    · intro a ha
      rw [hresult] at ha
      cases ha

end UniversalRemote.Z
