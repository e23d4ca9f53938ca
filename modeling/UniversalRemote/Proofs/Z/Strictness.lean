import UniversalRemote.Proofs.Link.Faults
import UniversalRemote.Proofs.Parameter.Room
import UniversalRemote.Z.Net
/-!
# Z exchanges end at the first failure

Requests over either link are strict, and so is all that happens on a stream until it is closed.
Closing a stream lets timeouts pass, but no other failure. No exchange with a Z remote leaves a machine
word.
-/

namespace UniversalRemote.Z

open Exchange ParameterWriter

variable {wide : Prop}

def closes (report : Report) : Bool :=
  report.getD 1 0 &&& finFlag ≠ 0

/-- Strict, and no stream is closed. -/
abbrev Steady (wide : Prop) (x : Exchange RemoteError α) : Prop :=
  x.Strict (closes · = false) (Halt.Own wide)

/-! ## Requests -/

section Requests

variable {writes : Report → Prop} {link : Link}

/-- All requests over a link are strict. -/
def StrictLink (writes : Report → Prop) (wide : Prop) (link : Link) : Prop :=
  ∀ command parameters timeout,
    (link.request command parameters timeout).Strict writes (Halt.Own wide)

variable (hlink : StrictLink writes wide link)
include hlink

theorem strict_ask (command : UInt8) (parameters : ParameterWriter) (timeout : Nat)
    (doing : String) :
    (link.ask command parameters timeout doing).Strict writes (Halt.Own wide) := by
  refine (hlink _ _ _).bind fun response => Strict.bind ?_ fun _ => strict_pure _
  unfold demand
  split
  · exact strict_refuse _
  split
  · exact strict_refuse _
  · exact strict_pure _

theorem strict_identify : (identify link).Strict writes (Halt.Own wide) := by
  refine (strict_ask hlink _ _ _ _).bind fun info => (strict_check _).bind fun identity => ?_
  refine (strict_ask hlink _ _ _ _).bind fun guid => (strict_check _).bind fun raw => ?_
  exact (strict_progress _ _ _).bind fun _ => strict_pure _

theorem strict_readClock : (readClock link).Strict writes (Halt.Own wide) :=
  (strict_ask hlink _ _ _ _).bind fun _ => strict_check _

theorem strict_setClock (t : DateTime) : (setClock link t).Strict writes (Halt.Own wide) := by
  refine (strict_checkHalt fun _ => (roomy_timeParameters link.order t).1).bind
    fun parameters => ?_
  exact (strict_ask hlink _ _ _ _).bind fun _ => strict_progress _ _ _

end Requests

theorem strict_hidLink : StrictLink (closes · = false) wide hidLink := by
  intro command parameters timeout
  have hask : ∀ payload, Steady wide (do
      send (datagram command payload)
      check (Response.ofDatagram (← receive timeout))) := by
    intro payload
    have hsent : closes (datagram command payload) = false := by
      show decide ((0x01 : UInt8) &&& finFlag ≠ 0) = false
      decide
    refine Strict.bind (strict_send hsent) fun _ => ?_
    exact (strict_receive _).bind fun _ => strict_check _
  show (requestDatagram command parameters timeout).Strict _ _
  unfold requestDatagram
  dsimp only
  exact strict_unless (strict_refuse _) (hask _)

theorem strict_netLink {writes : Report → Prop} (hwrites : ∀ report, writes report) :
    StrictLink writes wide netLink :=
  fun _ _ _ => (strict_send (hwrites _)).bind fun _ => (strict_receive _).bind fun _ =>
    strict_check _

/-! ## Streams -/

theorem steady_demand (packet : Packet) (command : UInt8) (doing : String) :
    Steady wide (packet.demand command doing) := by
  unfold Packet.demand
  exact strict_unless (strict_refuse _) (strict_unless (strict_refuse _) (strict_pure packet.body))

namespace Channel

theorem closes_closing (stream : Stream) :
    closes [3, (stream.header finFlag).1.flags, (stream.header finFlag).1.seq,
      (stream.header finFlag).1.ack] = true := by
  have hflags : (stream.header finFlag).1.flags &&& finFlag ≠ 0 := by
    unfold Stream.header
    dsimp only
    split
    · decide
    · decide
  simp [closes, hflags]

theorem closes_header (stream : Stream) (length seq ack : UInt8) (rest : List UInt8) :
    closes (length :: (stream.header 0).1.flags :: seq :: ack :: rest) = false := by
  have hflags : (stream.header 0).1.flags &&& finFlag = 0 := by
    unfold Stream.header
    dsimp only
    split
    · decide
    · decide
  simp [closes, hflags]

variable (stream : Stream)

theorem steady_sendRequest (command : UInt8) (payload : List UInt8) :
    Steady wide (sendRequest stream command payload) := by
  unfold sendRequest
  refine strict_unless (strict_refuse _) ?_
  exact Strict.bind (strict_send (closes_header stream _ _ _ _)) fun _ => strict_pure _

theorem steady_acknowledge : Steady wide (acknowledge stream 0) :=
  Strict.bind (strict_send (closes_header stream _ _ _ _)) fun _ => strict_pure _

theorem steady_receivePacket (timeout : Nat) : Steady wide (receivePacket stream timeout) := by
  refine (strict_receive timeout).bind fun report => (strict_check _).bind fun stream => ?_
  exact (strict_check _).bind fun packet => strict_pure _

theorem steady_converse (command : UInt8) (payload : List UInt8) (timeout : Nat) :
    Steady wide (converse stream command payload timeout) :=
  (steady_sendRequest stream command payload).bind fun stream => steady_receivePacket stream timeout

theorem steady_carryOut (command : UInt8) (payload : List UInt8) (doing : String) :
    Steady wide (carryOut stream command payload doing) := by
  refine (steady_converse stream command payload _).bind fun (packet, stream) => ?_
  exact (steady_demand packet command doing).bind fun _ => strict_pure _

theorem steady_acknowledgeAndWait : Steady wide (acknowledgeAndWait stream) :=
  (steady_acknowledge stream).bind fun stream => steady_receivePacket stream _

theorem steady_establish : Steady wide establish := by
  refine (strict_ask strict_hidLink _ _ _ _).bind fun _ => ?_
  refine (steady_receivePacket _ _).bind fun (packet, stream) => ?_
  exact strict_unless (strict_refuse _) (strict_pure stream)

/-! ### The end of a stream -/

/-- Accounts for its failures once the host has closed its side. -/
abbrev Parting (wide : Prop) (x : Exchange RemoteError α) : Prop :=
  x.Honest closes wide true

theorem parting_check_bind {answer : Except ProtocolError α} {f : α → Exchange RemoteError β}
    {g : Except RemoteError β → Exchange RemoteError γ} (hf : ∀ a, Parting wide (attempt (f a) >>= g))
    (hg : ∀ cause, Parting wide (g (.error (.protocol cause)))) :
    Parting wide (attempt (check answer >>= f) >>= g) := by
  cases answer with
  | ok a => exact hf a
  | error cause => exact hg cause

theorem parting_send (report : Report) : Parting wide (send report) :=
  .inr ⟨nofun, fun _ => rfl⟩

theorem parting_awaitClosing (reads : Nat) :
    ∀ stream, Parting wide (awaitClosing reads stream) := by
  induction reads with
  | zero => exact fun _ => honest_pure _
  | succ reads ih =>
    intro stream
    unfold awaitClosing receivePacket
    refine honest_attempt_receive (fun report => ?_) (fun cause hcause => ?_) fun cause hcause => ?_
    · refine parting_check_bind (fun stream => ?_) fun cause => honest_throw trivial
      refine parting_check_bind (fun packet => ?_) fun cause => honest_throw trivial
      show Parting wide (if packet.flags &&& finFlag ≠ 0 then pure (some stream)
        else awaitClosing reads stream)
      split
      · exact honest_pure _
      · exact ih stream
    · show Parting wide (if cause.timedOut then pure none else fail (.link cause))
      rw [hcause]
      exact honest_pure _
    · show (if cause.timedOut then pure none else fail (.link cause)).Ending (α := Option Stream) _
      rw [hcause]
      exact rfl

/-- Closing a stream lets timeouts pass, and no other failure. -/
theorem honest_close_bind {f : Unit → Exchange RemoteError α} (hf : ∀ closed, Parting wide (f closed)) :
    (close stream >>= f).Honest closes wide false := by
  unfold close acknowledge
  simp only [bind_assoc, pure_bind]
  refine honest_farewell (closes_closing stream) ?_
  refine Honest.bind (parting_awaitClosing _ _) (fun _ => rfl) fun closed => ?_
  refine Honest.bind ?_ (fun _ => rfl) hf
  cases closed with
  | none => exact honest_pure _
  | some stream =>
    refine Honest.bind (parting_send _) (fun _ => rfl) fun _ => ?_
    rw [← bind_pure (receive promptWait)]
    refine honest_attempt_receive (fun report => honest_pure _) (fun cause hcause => ?_)
      fun cause hcause => ?_
    · show Parting wide (if cause.timedOut then pure () else fail (.link cause))
      rw [hcause]
      exact honest_pure _
    · show (if cause.timedOut then pure () else fail (.link cause)).Ending _
      rw [hcause]
      exact rfl

theorem honest_close : (close stream).Honest closes wide false := by
  have hbind : (close stream >>= pure).Honest closes wide false :=
    honest_close_bind stream honest_pure
  rwa [bind_pure] at hbind

end Channel

/-! ## Regions over reports -/

section Regions

theorem steady_receiveRegion (patience : Nat) :
    ∀ (stream : Stream) (carry : Option Carry) (received : Nat) (past : List (List UInt8)),
      Steady wide (receiveRegion patience stream carry received past) := by
  induction patience with
  | zero => exact fun _ _ _ _ => strict_throw trivial
  | succ patience ih =>
    intro stream carry received past
    unfold receiveRegion
    refine (Channel.steady_converse stream _ _ _).bind fun (packet, stream) => ?_
    dsimp only
    split
    · exact strict_unless (strict_refuse _) (strict_pure _)
    refine (steady_demand packet _ _).bind fun chunk => ?_
    split
    · exact strict_pure _
    · exact strict_unless (strict_refuse _) ((strict_progress _ _ _).bind fun _ => ih _ _ _ _)

theorem steady_writeImage (total : Nat) (pieces : List (List UInt8)) :
    ∀ (written : Nat) (stream : Stream), Steady wide (writeImage total pieces written stream) := by
  induction pieces with
  | nil => exact fun _ _ => strict_pure _
  | cons piece rest ih =>
    exact fun _ _ => (Channel.steady_carryOut _ _ _ _).bind fun _ =>
      (strict_progress _ _ _).bind fun _ => ih _ _

theorem strict_compareChecksum {writes : Report → Prop} (image : List UInt8) (actual : UInt16) :
    (compareChecksum image actual).Strict writes (Halt.Own wide) := by
  unfold compareChecksum
  dsimp only
  split
  · exact strict_throw trivial
  · exact strict_pure _

variable (stream : Stream) (region : UInt8)

theorem steady_confirmImage (image : List UInt8) :
    Steady wide (confirmImage stream region image) := by
  refine (Channel.steady_converse stream _ _ _).bind fun (packet, stream) => ?_
  refine (steady_demand packet _ _).bind fun body => ?_
  refine strict_unless (strict_refuse _) ?_
  exact (strict_compareChecksum _ _).bind fun _ => strict_pure stream

theorem steady_finishUpdate : Steady wide (finishUpdate stream region) := by
  refine (Channel.steady_sendRequest stream _ _).bind fun stream => ?_
  refine (Channel.steady_receivePacket stream _).bind fun (_, stream) => ?_
  refine (Channel.steady_acknowledgeAndWait stream).bind fun (packet, stream) => ?_
  exact (steady_demand packet _ _).bind fun _ => strict_pure _

/-- Reading a region over reports accounts for its failures; the stream is closed at its end. -/
theorem honest_fetchRegion (patience : Nat) (region : Region) :
    (fetchRegion patience region).Honest closes wide false := by
  have hwrites : ∀ report, closes report = false → closes report = false := fun _ h => h
  refine Channel.steady_establish.honest_bind hwrites fun stream => ?_
  refine (Channel.steady_carryOut stream _ _ _).honest_bind hwrites fun stream => ?_
  refine (steady_receiveRegion _ _ _ _ _).honest_bind hwrites fun (chunks, stream) => ?_
  exact Channel.honest_close_bind stream fun _ => honest_pure _

/-- Installing an image over reports accounts for its failures. -/
theorem honest_installHid (image : Image) : (installHid image).Honest closes wide false := by
  have hwrites : ∀ report, closes report = false → closes report = false := fun _ h => h
  have hrefused : Steady wide (fail (α := PUnit) (.notOffered .zHid .installConfig)) :=
    strict_throw trivial
  unfold installHid
  refine hrefused.honest_unless hwrites ?_
  refine Channel.steady_establish.honest_bind hwrites fun stream => ?_
  refine (Channel.steady_carryOut stream _ _ _).honest_bind hwrites fun stream => ?_
  refine (Channel.steady_carryOut stream _ _ _).honest_bind hwrites fun stream => ?_
  refine (strict_progress _ _ _).honest_bind hwrites fun _ => ?_
  refine (steady_writeImage _ _ _ stream).honest_bind hwrites fun stream => ?_
  refine (Channel.steady_carryOut stream _ _ _).honest_bind hwrites fun stream => ?_
  refine (Channel.steady_acknowledgeAndWait stream).honest_bind hwrites fun (_, stream) => ?_
  refine (Channel.steady_acknowledgeAndWait stream).honest_bind hwrites fun (_, stream) => ?_
  refine (steady_confirmImage stream _ _).honest_bind hwrites fun stream => ?_
  refine (steady_finishUpdate stream _).honest_bind hwrites fun stream => ?_
  exact (strict_progress _ _ _).honest_bind hwrites fun _ => Channel.honest_close stream

end Regions

/-! ## Regions over the network -/

section Network

theorem roomy_none : Roomy 0 (.ok netLink.none) :=
  roomy_ok (Nat.le_refl 0)

theorem roomy_region (region : UInt8) : Roomy 1 (netLink.none.byte region) :=
  roomy_push (Nat.le_refl 0) (by decide) _

variable {writes : Report → Prop} (hwrites : ∀ report, writes report)
include hwrites

theorem strict_callNet {limit : Nat} {parameters : Except (Halt ProtocolError) ParameterWriter}
    (h : Roomy limit parameters) (command : UInt8) (doing : String) :
    (callNet command parameters doing).Strict writes (Halt.Own wide) :=
  (strict_checkHalt fun _ => h.1).bind fun _ => strict_ask (strict_netLink hwrites) _ _ _ _

theorem strict_receiveNetRegion (total answers : Nat) :
    ∀ (received : Nat) (past : List (List UInt8)),
      (receiveNetRegion total answers received past).Strict writes (Halt.Own wide) := by
  induction answers with
  | zero => exact fun _ _ => strict_pure _
  | succ answers ih =>
    intro received past
    unfold receiveNetRegion
    split
    · exact strict_pure _
    refine (strict_callNet hwrites roomy_none _ _).bind fun parameters => ?_
    refine (strict_check _).bind fun chunk => ?_
    exact strict_unless (strict_refuse _) ((strict_progress _ _ _).bind fun _ => ih _ _)

theorem strict_fetchNetRegion (region : Region) :
    (fetchNetRegion region).Strict writes (Halt.Own wide) := by
  refine (strict_callNet hwrites (roomy_region _) _ _).bind fun parameters => ?_
  refine (strict_check _).bind fun total => ?_
  refine (strict_receiveNetRegion hwrites _ _ _ _).bind fun chunks => ?_
  exact (strict_callNet hwrites roomy_none _ _).bind fun _ => strict_pure _

theorem strict_writeNetImage (total : Nat) (pieces : List (List UInt8)) :
    ∀ written, (writeNetImage total pieces written).Strict writes (Halt.Own wide) := by
  induction pieces with
  | nil => exact fun _ => strict_pure _
  | cons piece rest ih =>
    intro written
    have hpiece : Roomy 1 (netLink.none.bytes piece) := roomy_bytes (Nat.le_refl 0) (by decide) _
    refine (strict_callNet hwrites hpiece _ _).bind fun _ => ?_
    exact (strict_progress _ _ _).bind fun _ => ih _

theorem strict_confirmNetImage (region : UInt8) (image : List UInt8) :
    (confirmNetImage region image).Strict writes (Halt.Own wide) := by
  refine (strict_checkHalt fun _ => (roomy_region region).1).bind fun parameters => ?_
  refine (strict_ask (strict_netLink hwrites) _ _ _ _).bind fun answer => ?_
  exact (strict_check _).bind fun actual => strict_compareChecksum _ _

theorem strict_installNet (image : Image) : (installNet image).Strict writes (Halt.Own wide) := by
  have hregion := roomy_region image.region.code
  have hheader : Roomy 2 (netLink.none.dword (UInt32.ofNat image.data.length) >>=
      (·.byte image.region.code)) := (roomy_push (Nat.le_refl 0) (by decide) _).byte (by decide) _
  unfold installNet
  refine strict_unless (strict_throw trivial) ?_
  refine (strict_callNet hwrites hregion _ _).bind fun _ => ?_
  refine (strict_callNet hwrites hheader _ _).bind fun _ => ?_
  refine (strict_progress _ _ _).bind fun _ => ?_
  refine (strict_writeNetImage hwrites _ _ _).bind fun _ => ?_
  refine (strict_callNet hwrites hregion _ _).bind fun _ => ?_
  refine (strict_confirmNetImage hwrites _ _).bind fun _ => ?_
  exact (strict_callNet hwrites hregion _ _).bind fun _ => strict_progress _ _ _

end Network

end UniversalRemote.Z
