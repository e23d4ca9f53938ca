import UniversalRemote.Z.Hid
import UniversalRemote.Proofs.Link.Obeying
/-!
# A simulated Z remote

A remote that serves one region over a stream. It opens the stream when it is asked to, numbers its
packets by the bytes they carry, answers each request for data with the next piece of the region and
each one behind the last piece with its farewell, and closes its side or falls silent. All else that
is up to a remote is left open: the flags, acknowledgements and padding of its packets, the cut of
the region into pieces, and what it sends once the stream is closed.
-/

namespace UniversalRemote.Z

/-- What a packet has beside its number and contents. -/
structure Dress where
  flags : UInt8
  ack : UInt8
  kind : UInt8
  padding : List UInt8

def Dress.packet (d : Dress) (number extra : UInt8) (content : List UInt8) : Report :=
  UInt8.ofNat (3 + content.length) :: (d.flags ||| extra) :: number :: d.ack ::
    (content ++ d.padding)

def numberBehind (number flags : UInt8) (length : Nat) : UInt8 :=
  if flags &&& (synFlag ||| finFlag) = 0 then number + UInt8.ofNat length
  else number + UInt8.ofNat length + 1

/-- The most bytes that an answer has room for behind its command and status. -/
def answerLimit : Nat := 249

structure Simulated where
  /-- The answer to the request to open a stream. -/
  consent : Report
  consents : ∃ parameters, Response.ofDatagram consent = .ok ⟨0x40, statusOk, parameters⟩
  /-- The number of the first packet. -/
  number : UInt8
  /-- What the packets look like, by the number of packets before. -/
  dress : Nat → Dress
  /-- What it tells of the region before its data. -/
  announcement : List UInt8
  /-- The data of the region, as it is cut into answers. -/
  bodies : List (List UInt8)
  /-- The status and the body of the answer that there is no more data. -/
  farewell : UInt8 × List UInt8
  fits : ∀ body ∈ announcement :: farewell.2 :: bodies, body.length ≤ answerLimit
  /-- Whether it closes its side of the stream. -/
  closes : Bool
  /-- What it sends behind its closing packet. -/
  trailing : List Report

namespace Simulated

structure State where
  /-- The number of packets sent. -/
  sent : Nat
  /-- The number of the next packet. -/
  number : UInt8
  /-- The data that is left. -/
  bodies : List (List UInt8)
  /-- How many times it was asked for data. -/
  asked : Nat
  /-- What has been sent and not been read. -/
  unread : List Report

variable (r : Simulated)

def start : State := ⟨0, r.number, r.bodies, 0, []⟩

def emit (s : State) (extra : UInt8) (content : List UInt8) : State :=
  let dress := r.dress s.sent
  { s with
    sent := s.sent + 1
    number := numberBehind s.number (dress.flags ||| extra) content.length
    unread := s.unread ++ [dress.packet s.number extra content] }

def answer (s : State) (command status : UInt8) (body : List UInt8) : State :=
  r.emit s 0 ((r.dress s.sent).kind :: command :: status :: body)

def carryOut (s : State) (command : UInt8) : State :=
  if command = 0x47 then r.answer s 0x47 statusOk r.announcement
  else if command = 0x48 then
    match s.bodies with
    | body :: rest => r.answer { s with bodies := rest, asked := s.asked + 1 } 0x48 statusOk body
    | [] => r.answer { s with asked := s.asked + 1 } 0x49 r.farewell.1 r.farewell.2
  else s

def finish (s : State) : State :=
  if r.closes then
    let s := r.emit s finFlag []
    { s with unread := s.unread ++ r.trailing }
  else s

/-- Takes in a report: the request to open a stream, or a packet on it. -/
def obey (s : State) (report : Report) : State :=
  if report = datagram 0x40 [] then r.emit { s with unread := s.unread ++ [r.consent] } synFlag []
  else
    match report with
    | _ :: flags :: _ :: _ :: content =>
      if flags &&& finFlag ≠ 0 then r.finish s
      else
        match content with
        | _ :: command :: _ => r.carryOut s command
        | _ => s
    | _ => s

abbrev device : Device State :=
  .obeying r.obey State.unread fun s rest => { s with unread := rest }

/-! ## Packets -/

theorem absorb_packet {stream : Stream} {number : UInt8} {content : List UInt8}
    (hdue : ∀ due, stream.due = some due → number = due) (hlength : content.length ≤ 252)
    (d : Dress) (extra : UInt8) :
    ∃ after, stream.absorb (d.packet number extra content) = .ok after ∧
      after.due = some (numberBehind number (d.flags ||| extra) content.length) := by
  have hcount : ¬ UInt8.ofNat (3 + content.length) < 3 := by
    rw [UInt8.lt_iff_toNat_lt, UInt8.toNat_ofNat']
    simp
    omega
  have hpayload : UInt8.ofNat (3 + content.length) - 3 = UInt8.ofNat content.length := by
    rw [Nat.add_comm, UInt8.ofNat_add]
    exact UInt8.add_sub_cancel _ _
  simp only [Dress.packet, Stream.absorb_eq, if_neg hcount, hpayload]
  cases h : stream.due with
  | none => exact ⟨_, rfl, rfl⟩
  | some due =>
    rw [hdue due h]
    exact ⟨_, if_pos rfl, rfl⟩

theorem ofReport_bare (d : Dress) (number extra : UInt8) :
    Packet.ofReport (d.packet number extra []) = .ok ⟨d.flags ||| extra, none, 0, []⟩ := by
  simp [Packet.ofReport, Dress.packet]

theorem ofReport_answer {body : List UInt8} (hbody : body.length ≤ answerLimit) (d : Dress)
    (number extra kind command status : UInt8) :
    Packet.ofReport (d.packet number extra (kind :: command :: status :: body)) =
      .ok ⟨d.flags ||| extra, some command, status, body⟩ := by
  have hcount : (UInt8.ofNat (3 + (kind :: command :: status :: body).length)).toNat =
      body.length + 6 := by
    simp only [answerLimit] at hbody
    simp only [List.length_cons, UInt8.toNat_ofNat']
    omega
  simp only [Packet.ofReport, Dress.packet, List.headD_cons, hcount]
  simp

theorem or_and_self_ne_zero (flags : UInt8) {flag : UInt8} (h : flag ≠ 0) :
    (flags ||| flag) &&& flag ≠ 0 := by
  have hself : (flags ||| flag) &&& flag = flag := by
    apply UInt8.toBitVec_inj.1
    ext i
    simp only [UInt8.toBitVec_and, UInt8.toBitVec_or, BitVec.getElem_and, BitVec.getElem_or]
    cases flag.toBitVec[i] <;> simp
  rwa [hself]

/-! ## Reports -/

variable {r} {stream : Stream} {s t : State}

theorem ending_receivePacket {d : Dress} {number extra : UInt8} {content : List UInt8}
    {packet : Packet} {rest : List Report} (h : s.unread = d.packet number extra content :: rest)
    (hdue : ∀ due, stream.due = some due → number = due) (hlength : content.length ≤ 252)
    (hpacket : Packet.ofReport (d.packet number extra content) = .ok packet) (timeout : Nat) :
    ∃ after, (Channel.receivePacket stream timeout).ending r.device s =
        (.ok (packet, after), { s with unread := rest }) ∧
      after.due = some (numberBehind number (d.flags ||| extra) content.length) := by
  obtain ⟨after, habsorb, hafter⟩ := absorb_packet hdue hlength d extra
  refine ⟨after, ?_, hafter⟩
  rw [Channel.receivePacket, Exchange.ending_bind_ok (Device.ending_receive h timeout), habsorb, hpacket]
  rfl

/-! ## The stream -/

/-- The host and the remote agree on the number of the next packet, everything that was sent has
been read, and the remote has some data left and has been asked for data so many times. -/
structure Serving (stream : Stream) (s : State) (bodies : List (List UInt8)) (asked : Nat) :
    Prop where
  due : stream.due = some s.number
  read : s.unread = []
  bodies : s.bodies = bodies
  asked : s.asked = asked

variable {bodies : List (List UInt8)} {asked : Nat}

theorem header_flags (stream : Stream) :
    (stream.header 0).1.flags &&& finFlag = 0 := by
  cases h : stream.opened <;> simp only [Stream.header, h] <;> decide

theorem obey_request (s : State) (stream : Stream) (command : UInt8) (payload : List UInt8)
    (length : UInt8) :
    r.obey s ([length, (stream.header 0).1.flags, (stream.header 0).1.seq, (stream.header 0).1.ack,
      0x00, command] ++ payload) = r.carryOut s command := by
  simp [obey, datagram, header_flags]

theorem obey_closing (s : State) (stream : Stream) :
    r.obey s [3, (stream.header finFlag).1.flags, (stream.header finFlag).1.seq,
      (stream.header finFlag).1.ack] = r.finish s := by
  have hflags : (stream.header finFlag).1.flags &&& finFlag ≠ 0 ∧
      (stream.header finFlag).1.flags ≠ 1 := by
    cases h : stream.opened <;> simp only [Stream.header, h] <;> decide
  simp [obey, datagram, hflags]

theorem obey_acknowledgement (s : State) (stream : Stream) :
    r.obey s [3, (stream.header 0).1.flags, (stream.header 0).1.seq, (stream.header 0).1.ack] =
      s := by
  have hflags : (stream.header 0).1.flags ≠ 1 := by
    cases h : stream.opened <;> simp only [Stream.header, h] <;> decide
  simp [obey, datagram, hflags, header_flags]

/-- A request on the stream that is answered by one packet. -/
theorem ending_converse (h : Serving stream s bodies asked) {command : UInt8}
    (payload : List UInt8) (hpayload : payload.length ≤ Channel.payloadLimit)
    {answered status : UInt8} {body : List UInt8}
    (hobey : r.carryOut s command = r.answer t answered status body) (hnumber : t.number = s.number)
    (hread : t.unread = []) (hbody : body.length ≤ answerLimit) (timeout : Nat) :
    ∃ flags after u, (Channel.converse stream command payload timeout).ending r.device s =
        (.ok (⟨flags, some answered, status, body⟩, after), u) ∧
      Serving after u t.bodies t.asked := by
  have hsend : (Channel.sendRequest stream command payload).ending r.device s =
      (.ok (stream.header 0).2, r.answer t answered status body) := by
    rw [Channel.sendRequest, if_neg (by omega)]
    rw [← hobey, ← obey_request s stream command payload]
    rfl
  let d := r.dress t.sent
  have hunread : (r.answer t answered status body).unread =
      d.packet t.number 0 (d.kind :: answered :: status :: body) :: [] := by
    rw [answer, emit, hread]
    rfl
  have hdue : ∀ due, (stream.header 0).2.due = some due → t.number = due := by
    intro due hdue
    rw [hnumber]
    exact Option.some.inj (h.due.symm.trans hdue)
  have hcontent : (d.kind :: answered :: status :: body).length ≤ 252 := by
    simp only [answerLimit] at hbody
    simp only [List.length_cons]
    omega
  obtain ⟨after, hreceive, hafter⟩ := ending_receivePacket (r := r) hunread hdue hcontent
    (ofReport_answer hbody _ _ _ _ _ _) timeout
  refine ⟨d.flags ||| 0, after, { r.answer t answered status body with unread := [] }, ?_, hafter,
    rfl, rfl, rfl⟩
  rw [Channel.converse, Exchange.ending_bind_ok hsend, hreceive]

theorem fits_of_mem {body : List UInt8} (h : body ∈ r.bodies) : body.length ≤ answerLimit :=
  r.fits body (List.mem_cons_of_mem _ (List.mem_cons_of_mem _ h))

theorem ending_establish :
    ∃ stream s, Channel.establish.ending r.device r.start = (.ok stream, s) ∧
      Serving stream s r.bodies 0 := by
  obtain ⟨parameters, hconsent⟩ := r.consents
  let opened := r.emit { r.start with unread := [r.consent] } synFlag []
  have hobey : r.obey r.start (datagram 0x40 []) = opened := by
    simp [obey, start, opened]
  have hnext : opened.unread = [r.consent, (r.dress 0).packet r.number synFlag []] := rfl
  have hrequest : (requestDatagram 0x40 hidLink.none promptWait).ending r.device r.start =
      (.ok ⟨0x40, statusOk, parameters⟩,
        { opened with unread := [(r.dress 0).packet r.number synFlag []] }) := by
    change (Exchange.send (datagram 0x40 []) >>= _).ending r.device r.start = _
    rw [Exchange.ending_bind_ok (Device.ending_send _ _), hobey, Exchange.ending_bind_ok
      (Device.ending_receive hnext promptWait), hconsent]
    rfl
  have hask : (hidLink.ask 0x40 hidLink.none promptWait "opening the update channel").ending
      r.device r.start = (.ok parameters,
        { opened with unread := [(r.dress 0).packet r.number synFlag []] }) := by
    change (requestDatagram 0x40 hidLink.none promptWait >>= _).ending r.device r.start = _
    rw [Exchange.ending_bind_ok hrequest]
    rfl
  have hfresh : ∀ due, ({} : Stream).due = some due → r.number = due := fun _ hdue => nomatch hdue
  obtain ⟨stream, hreceive, hdue⟩ := ending_receivePacket (r := r)
    (s := { opened with unread := [(r.dress 0).packet r.number synFlag []] }) rfl hfresh (by simp)
    (ofReport_bare _ _ _) promptWait
  refine ⟨stream, { opened with unread := [] }, ?_, hdue, rfl, rfl, rfl⟩
  rw [Channel.establish, Exchange.ending_bind_ok hask, Exchange.ending_bind_ok hreceive]
  simp only [if_neg (or_and_self_ne_zero (r.dress 0).flags (show synFlag ≠ 0 by decide))]
  rfl

/-- The remote announces the region. -/
theorem ending_announce (h : Serving stream s bodies asked) (code : UInt8) (doing : String) :
    ∃ after t, (Channel.carryOut stream 0x47 [code] doing).ending r.device s = (.ok after, t) ∧
      Serving after t bodies asked := by
  have hobey : r.carryOut s 0x47 = r.answer s 0x47 statusOk r.announcement := rfl
  have hbody : r.announcement.length ≤ answerLimit := r.fits _ List.mem_cons_self
  obtain ⟨flags, after, t, hconverse, hserving⟩ := ending_converse h [code]
    (Nat.le_of_ble_eq_true rfl) hobey rfl h.read hbody promptWait
  rw [h.bodies, h.asked] at hserving
  refine ⟨after, t, ?_, hserving⟩
  rw [Channel.carryOut, Exchange.ending_bind_ok hconverse]
  rfl

/-- The remote answers a request for data with what is next. -/
theorem ending_data {body : List UInt8} (h : Serving stream s (body :: bodies) asked)
    (hbody : body.length ≤ answerLimit) :
    ∃ flags after t, (Channel.converse stream 0x48 [] promptWait).ending r.device s =
        (.ok (⟨flags, some 0x48, statusOk, body⟩, after), t) ∧
      Serving after t bodies (asked + 1) := by
  have hobey : r.carryOut s 0x48 =
      r.answer { s with bodies := bodies, asked := asked + 1 } 0x48 statusOk body := by
    simp [carryOut, h.bodies, h.asked]
  exact ending_converse h [] (by decide) hobey rfl h.read hbody promptWait

/-- Behind the last data the remote says that there is no more. -/
theorem ending_farewell (h : Serving stream s [] asked) :
    ∃ flags after t, (Channel.converse stream 0x48 [] promptWait).ending r.device s =
        (.ok (⟨flags, some 0x49, r.farewell.1, r.farewell.2⟩, after), t) ∧
      Serving after t [] (asked + 1) := by
  have hobey : r.carryOut s 0x48 =
      r.answer { s with bodies := [], asked := asked + 1 } 0x49 r.farewell.1 r.farewell.2 := by
    simp [carryOut, h.bodies, h.asked]
  have hbody : r.farewell.2.length ≤ answerLimit :=
    r.fits _ (List.mem_cons_of_mem _ List.mem_cons_self)
  exact ending_converse h [] (by decide) hobey rfl h.read hbody promptWait

/-- A remote that falls silent is let go. -/
theorem ending_awaitClosing_silent (hread : s.unread = []) :
    (Channel.awaitClosing Channel.closingReads stream).ending r.device s = (.ok none, s) := by
  have hreceive : (Channel.receivePacket stream promptWait).ending r.device s =
      (.error (.failed (.link (.timeout promptWait))), s) :=
    Exchange.ending_bind_error (Device.ending_receive_nil hread promptWait) _
  rw [Channel.closingReads, Channel.awaitClosing,
    Exchange.ending_bind_ok (Exchange.ending_attempt_failed hreceive)]
  rfl

theorem ending_awaitClosing_closed {d : Dress} {number : UInt8} {rest : List Report}
    (hunread : s.unread = d.packet number finFlag [] :: rest)
    (hdue : ∀ due, stream.due = some due → number = due) :
    ∃ after, (Channel.awaitClosing Channel.closingReads stream).ending r.device s =
      (.ok (some after), { s with unread := rest }) := by
  obtain ⟨after, hreceive, -⟩ := ending_receivePacket (r := r) hunread hdue (by simp)
    (ofReport_bare _ _ _) promptWait
  refine ⟨after, ?_⟩
  rw [Channel.closingReads, Channel.awaitClosing,
    Exchange.ending_bind_ok (Exchange.ending_attempt_ok hreceive)]
  simp only [if_pos (or_and_self_ne_zero d.flags (show finFlag ≠ 0 by decide))]
  rfl

theorem ending_close (h : Serving stream s bodies asked) :
    ∃ t, (Channel.close stream).ending r.device s = (.ok (), t) ∧ t.asked = asked := by
  have hfin : (Channel.acknowledge stream finFlag).ending r.device s =
      (.ok (stream.header finFlag).2, r.finish s) :=
    congrArg (Prod.mk (Except.ok (stream.header finFlag).2)) (obey_closing s stream)
  have hdue : ∀ due, (stream.header finFlag).2.due = some due → s.number = due :=
    fun due hdue => Option.some.inj (h.due.symm.trans hdue)
  rw [Channel.close, Exchange.ending_bind_ok hfin]
  cases hcloses : r.closes with
  | false =>
    have hsilent : r.finish s = s := by simp [finish, hcloses]
    rw [hsilent, Exchange.ending_bind_ok (ending_awaitClosing_silent h.read)]
    exact ⟨s, rfl, h.asked⟩
  | true =>
    have hunread : (r.finish s).unread =
        (r.dress s.sent).packet s.number finFlag [] :: r.trailing := by
      simp [finish, hcloses, emit, h.read]
    have hasked : (r.finish s).asked = asked := by
      simp [finish, hcloses, emit, h.asked]
    obtain ⟨after, hwait⟩ := ending_awaitClosing_closed (r := r) hunread hdue
    have hlast (t : State) : (Channel.acknowledge after 0).ending r.device t =
        (.ok (after.header 0).2, t) :=
      congrArg (Prod.mk (Except.ok (after.header 0).2)) (obey_acknowledgement t after)
    rw [Exchange.ending_bind_ok hwait]
    simp only
    rw [Exchange.ending_bind_ok (hlast _)]
    have hleft : State.unread { r.finish s with unread := r.trailing } = r.trailing := rfl
    cases htrailing : r.trailing with
    | nil =>
      rw [htrailing] at hleft
      rw [Exchange.ending_bind_ok (Exchange.ending_attempt_failed
        (Device.ending_receive_nil hleft promptWait))]
      exact ⟨_, rfl, hasked⟩
    | cons report rest =>
      rw [htrailing] at hleft
      rw [Exchange.ending_bind_ok (Exchange.ending_attempt_ok
        (Device.ending_receive hleft promptWait))]
      exact ⟨_, rfl, hasked⟩

end Simulated

end UniversalRemote.Z
