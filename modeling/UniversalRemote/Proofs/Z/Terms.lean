import UniversalRemote.Proofs.Link.Terms
import UniversalRemote.Proofs.Z.Access
import UniversalRemote.Z.Net
/-!
# Z exchanges within terms

Over reports, no packet is longer than 64 bytes: a datagram has room for 60 bytes behind its header
and a stream packet for 58, and an image is cut accordingly. Over the network, a message with a piece
of an image has at most 1030 bytes, as every piece has a length that can be announced. Once there is
traffic, nothing is refused for the sake of an argument.
-/

namespace UniversalRemote

open Exchange

/-! ## What is read from answers -/

namespace ParameterList

variable (p : ParameterList)

theorem blameless_bytes (i : Nat) : Blameless (p.bytes i) := by
  unfold bytes
  split
  · exact blameless_ok _
  · exact blameless_error rfl

theorem blameless_sized (i size : Nat) : Blameless (p.sized i size) := by
  refine (p.blameless_bytes i).bind fun value => ?_
  split
  · exact blameless_error rfl
  · exact blameless_ok _

theorem blameless_byte (i : Nat) : Blameless (p.byte i) :=
  (p.blameless_sized i 1).bind fun _ => blameless_ok _

theorem blameless_word (i : Nat) : Blameless (p.word i) :=
  (p.blameless_sized i 2).bind fun _ => blameless_ok _

theorem blameless_dword (i : Nat) : Blameless (p.dword i) :=
  (p.blameless_sized i 4).bind fun _ => blameless_ok _

theorem blameless_text (i : Nat) : Blameless (p.text i) :=
  (p.blameless_bytes i).bind fun _ => blameless_ok _

theorem blameless_entries (total count : Nat) (data : List UInt8) :
    Blameless (entries total count data) := by
  induction count generalizing data with
  | zero => exact blameless_ok _
  | succ count ih =>
    cases data with
    | nil => exact blameless_error rfl
    | cons b rest =>
      unfold entries
      dsimp only
      split
      · exact blameless_error rfl
      · exact (ih _).map _

theorem blameless_parse (data : List UInt8) (countAt : Nat) (order : ByteOrder) :
    Blameless (parse data countAt order) := by
  unfold parse
  split
  · exact blameless_ok _
  · exact (blameless_entries _ _ _).map _

theorem blameless_ofDatagram (data : List UInt8) : Blameless (ofDatagram data) := by
  unfold ofDatagram
  split
  · exact blameless_error rfl
  split
  · exact blameless_ok _
  split
  · exact blameless_ok _
  split
  · split
    · exact blameless_ok _
    · exact blameless_ok _
  · exact blameless_parse _ _ _

end ParameterList

theorem Stream.blameless_absorb (stream : Stream) (report : Report) :
    Blameless (stream.absorb report) := by
  rw [Stream.absorb_eq]
  split
  · dsimp only
    split
    · exact blameless_error rfl
    split
    · exact blameless_ok _
    split
    · exact blameless_ok _
    · exact blameless_error rfl
  · exact blameless_error rfl

namespace Z

variable {terms : Terms}

theorem blameless_identityOf (family : Family) (info : ParameterList) :
    Blameless (identityOf family info) := by
  unfold identityOf
  have hrest : ∀ identity : Identity, Blameless (do
      let architectureCode ← info.word 2
      let firmwareMajor ← info.word 3
      let firmwareMinor ← info.word 4
      let firmwareType ← info.byte 5
      let skin ← info.word 6
      let hardware ← info.word 7
      return { identity with
        architectureCode, firmwareMajor, firmwareMinor, firmwareType, skin
        hardwareMajor := (hardware >>> 8).toUInt8
        hardwareMinor := ((hardware >>> 4) &&& 0x0F).toUInt8 }) := fun identity =>
    (info.blameless_word 2).bind fun _ => (info.blameless_word 3).bind fun _ =>
      (info.blameless_word 4).bind fun _ => (info.blameless_byte 5).bind fun _ =>
        (info.blameless_word 6).bind fun _ => (info.blameless_word 7).bind fun _ => blameless_ok _
  split
  · exact (info.blameless_word 0).bind fun _ => (info.blameless_word 1).bind fun _ => hrest _
  · exact hrest _

theorem blameless_timeOf (p : ParameterList) : Blameless (timeOf p) := by
  refine (p.blameless_word 0).bind fun year => (p.blameless_byte 1).bind fun month => ?_
  refine (p.blameless_byte 2).bind fun day => (p.blameless_byte 3).bind fun hour => ?_
  refine (p.blameless_byte 4).bind fun minute => (p.blameless_byte 5).bind fun second => ?_
  refine (p.blameless_byte 6).bind fun weekday => (p.blameless_word 7).bind fun offset => ?_
  dsimp only
  split
  · exact (p.blameless_text 11).bind fun _ => blameless_ok _
  · exact blameless_ok _

theorem blameless_responseOfDatagram (report : Report) : Blameless (Response.ofDatagram report) := by
  unfold Response.ofDatagram
  dsimp only
  split
  · exact blameless_error rfl
  · exact (ParameterList.blameless_ofDatagram _).map _

theorem blameless_responseOfMessage (message : Report) :
    Blameless (Response.ofMessage message) := by
  unfold Response.ofMessage
  split
  · exact (ParameterList.blameless_parse _ _ _).map _
  · exact blameless_error rfl

theorem blameless_ofReport (report : Report) : Blameless (Packet.ofReport report) := by
  unfold Packet.ofReport
  dsimp only
  split
  · exact blameless_error rfl
  split
  · exact blameless_ok _
  · exact blameless_ok _
  · exact blameless_error rfl

/-! ## Requests -/

/-- A remote that has fallen silent may be let go. -/
theorem within_unlessTimedOut {cause : RemoteError} (h : terms.ends (.failed cause)) (a : α) :
    (if cause.timedOut then pure a else fail cause : Exchange RemoteError α).Within terms := by
  split
  · exact within_pure a
  · exact within_throw h

section Requests

variable {link : Link} {command : UInt8} {parameters : ParameterWriter} {timeout : Nat}

theorem within_answer (answered status command : UInt8) (doing : String)
    (parameters : ParameterList) :
    (demand answered status command doing >>= fun _ => pure parameters).Within terms := by
  refine Within.bind ?_ fun _ => within_pure _
  unfold demand
  split
  · exact within_refuse rfl
  split
  · exact within_refuse rfl
  · exact within_pure _

theorem within_ask (h : (link.request command parameters timeout).Within terms) (doing : String) :
    (link.ask command parameters timeout doing).Within terms :=
  h.bind fun _ => within_answer _ _ _ _ _

theorem prompt_ask (h : (link.request command parameters timeout).Prompt terms) (doing : String) :
    (link.ask command parameters timeout doing).Prompt terms :=
  h.bind fun _ => within_answer _ _ _ _ _

theorem prompt_setClock (hrequest : ∀ command parameters timeout,
    (link.request command parameters timeout).Prompt terms) (t : DateTime) :
    (setClock link t).Prompt terms :=
  prompt_checkHalt_bind fun _ _ =>
    (prompt_ask (hrequest _ _ _) _).bind fun _ => within_progress _ _ _

variable (hnone : ∀ command timeout, (link.request command link.none timeout).Within terms)
include hnone

theorem within_identify : (identify link).Within terms := by
  refine (within_ask (hnone _ _) _).bind fun info => ?_
  refine (within_check (blameless_identityOf _ info)).bind fun identity => ?_
  refine (within_ask (hnone _ _) _).bind fun guid => ?_
  refine (within_check (guid.blameless_bytes 0)).bind fun raw => ?_
  exact (within_progress _ _ _).bind fun _ => within_pure _

theorem within_readClock : (readClock link).Within terms :=
  (within_ask (hnone _ _) _).bind fun p => within_check (blameless_timeOf p)

/-- Whether the restart is one that the remote knows is found out before any traffic. -/
theorem prompt_restart (kind : Restart) : (restart link kind).Prompt terms := by
  unfold restart
  refine prompt_unless rfl fun _ => Within.prompt ?_
  refine within_attempt_bind (hnone _ _) fun outcome houtcome => ?_
  cases outcome with
  | ok _ => exact within_pure _
  | error cause => exact within_unlessTimedOut (houtcome cause rfl) _

end Requests

section Reports

variable (hwrites : ∀ report, report.length ≤ 64 → terms.writes report)
include hwrites

/-- A datagram that is too long is refused before it is written. -/
theorem prompt_requestDatagram (command : UInt8) (parameters : ParameterWriter) (timeout : Nat) :
    (requestDatagram command parameters timeout).Prompt terms := by
  unfold requestDatagram
  dsimp only
  generalize (if parameters.count = 0 then [] else parameters.finish) = payload
  refine prompt_unless rfl fun hlength => Within.prompt ?_
  have hfits : (datagram command payload).length ≤ 64 := by
    have hlimit : datagramLimit = 60 := rfl
    rw [datagram, List.length_append]
    show 4 + payload.length ≤ 64
    omega
  refine (within_send (hwrites _ hfits)).bind fun _ => (within_receive _).bind fun report => ?_
  exact within_check (blameless_responseOfDatagram report)

theorem within_requestDatagram_none (command : UInt8) (timeout : Nat) :
    (hidLink.request command hidLink.none timeout).Within terms := by
  have hfits : (datagram command []).length ≤ 64 := by simp [datagram]
  show (requestDatagram command hidLink.none timeout).Within terms
  unfold requestDatagram
  refine (within_send (hwrites _ hfits)).bind fun _ => (within_receive _).bind fun report => ?_
  exact within_check (blameless_responseOfDatagram report)

/-! ## Streams -/

omit hwrites in
theorem within_packet_demand (packet : Packet) (command : UInt8) (doing : String) :
    (packet.demand command doing).Within terms := by
  unfold Packet.demand
  exact within_unless (within_refuse rfl) (within_unless (within_refuse rfl) (within_pure _))

namespace Channel

variable (stream : Stream)

theorem within_sendRequest (command : UInt8) {payload : List UInt8}
    (hpayload : payload.length ≤ payloadLimit) :
    (sendRequest stream command payload).Within terms := by
  have hlimit : payloadLimit = 58 := rfl
  unfold sendRequest
  dsimp only
  rw [if_neg (Nat.not_lt.2 hpayload)]
  refine (within_send (hwrites _ ?_)).bind fun _ => within_pure _
  simp only [List.length_append, List.length_cons, List.length_nil]
  omega

theorem within_acknowledge (flags : UInt8) : (acknowledge stream flags).Within terms :=
  (within_send (hwrites _ (by simp))).bind fun _ => within_pure _

omit hwrites in
theorem one_fits (b : UInt8) : [b].length ≤ payloadLimit :=
  (by decide : 1 ≤ 58)

omit hwrites in
theorem within_receivePacket (timeout : Nat) : (receivePacket stream timeout).Within terms := by
  refine (within_receive timeout).bind fun report => ?_
  refine (within_check (stream.blameless_absorb report)).bind fun stream => ?_
  exact (within_check (blameless_ofReport report)).bind fun _ => within_pure _

theorem within_converse (command : UInt8) {payload : List UInt8}
    (hpayload : payload.length ≤ payloadLimit) (timeout : Nat) :
    (converse stream command payload timeout).Within terms :=
  (within_sendRequest hwrites stream command hpayload).bind fun _ => within_receivePacket _ _

theorem within_carryOut (command : UInt8) {payload : List UInt8}
    (hpayload : payload.length ≤ payloadLimit) (doing : String) :
    (carryOut stream command payload doing).Within terms :=
  (within_converse hwrites stream command hpayload _).bind fun (packet, _) =>
    (within_packet_demand packet command doing).bind fun _ => within_pure _

theorem within_acknowledgeAndWait : (acknowledgeAndWait stream).Within terms :=
  (within_acknowledge hwrites stream 0).bind fun _ => within_receivePacket _ _

theorem within_establish : establish.Within terms := by
  refine (within_ask (within_requestDatagram_none hwrites _ _) _).bind fun _ => ?_
  refine (within_receivePacket _ _).bind fun (packet, stream) => ?_
  exact within_unless (within_refuse rfl) (within_pure _)

omit hwrites in
theorem within_awaitClosing (reads : Nat) :
    ∀ stream, (awaitClosing reads stream).Within terms := by
  induction reads with
  | zero => exact fun _ => within_pure _
  | succ reads ih =>
    intro stream
    refine within_attempt_bind (within_receivePacket stream _) fun outcome houtcome => ?_
    cases outcome with
    | ok taken =>
      dsimp only
      split
      · exact within_pure _
      · exact ih _
    | error cause => exact within_unlessTimedOut (houtcome cause rfl) _

theorem within_close : (close stream).Within terms := by
  refine (within_acknowledge hwrites stream finFlag).bind fun stream => ?_
  refine (within_awaitClosing _ stream).bind fun closed => ?_
  cases closed with
  | none => exact within_pure _
  | some stream =>
    refine (within_acknowledge hwrites stream 0).bind fun _ => ?_
    refine within_attempt_bind (within_receive _) fun outcome houtcome => ?_
    cases outcome with
    | ok _ => exact within_pure _
    | error cause => exact within_unlessTimedOut (houtcome cause rfl) _

end Channel

/-! ## Regions over reports -/

theorem within_receiveRegion (hstalled : terms.ends .stalled) (patience : Nat) :
    ∀ (stream : Stream) (carry : Option Carry) (received : Nat) (past : List (List UInt8)),
      (receiveRegion patience stream carry received past).Within terms := by
  induction patience with
  | zero => exact fun _ _ _ _ => within_throw hstalled
  | succ patience ih =>
    intro stream carry received past
    refine (Channel.within_converse hwrites stream _ (Nat.zero_le _) _).bind fun (packet, stream) => ?_
    dsimp only
    split
    · exact within_unless (within_refuse rfl) (within_pure _)
    refine (within_packet_demand packet _ _).bind fun chunk => ?_
    split
    · exact within_pure _
    · exact within_unless (within_refuse rfl) ((within_progress _ _ _).bind fun _ => ih _ _ _ _)

theorem within_fetchRegion (hstalled : terms.ends .stalled) (patience : Nat) (region : Region) :
    (fetchRegion patience region).Within terms := by
  refine (Channel.within_establish hwrites).bind fun stream => ?_
  refine (Channel.within_carryOut hwrites stream _ (Channel.one_fits _) _).bind fun stream => ?_
  refine (within_receiveRegion hwrites hstalled _ _ _ _ _).bind fun (chunks, stream) => ?_
  exact (Channel.within_close hwrites stream).bind fun _ => within_pure _

/-- The pieces of an image are no longer than a packet has room for. -/
theorem within_writeImage (total : Nat) {pieces : List (List UInt8)}
    (hpieces : ∀ piece ∈ pieces, piece.length ≤ Channel.payloadLimit) :
    ∀ (written : Nat) (stream : Stream), (writeImage total pieces written stream).Within terms := by
  induction pieces with
  | nil => exact fun _ _ => within_pure _
  | cons piece rest ih =>
    intro written stream
    obtain ⟨hpiece, hrest⟩ := List.forall_mem_cons.1 hpieces
    refine (Channel.within_carryOut hwrites stream _ hpiece _).bind fun stream => ?_
    exact (within_progress _ _ _).bind fun _ => ih hrest _ _

omit hwrites in
theorem within_compareChecksum (hdiffers : ∀ cause, terms.ends (.failed (.mismatch cause)))
    (image : List UInt8) (actual : UInt16) : (compareChecksum image actual).Within terms := by
  unfold compareChecksum
  dsimp only
  split
  · exact within_throw (hdiffers _)
  · exact within_pure _

/-- Installing an image over reports is refused before any traffic, or not for the image's sake. -/
theorem prompt_installHid (hdiffers : ∀ cause, terms.ends (.failed (.mismatch cause)))
    (image : Image) : (installHid image).Prompt terms := by
  have hheader : (ByteOrder.little.bytes 4 image.data.length ++ [image.region.code]).length ≤
      Channel.payloadLimit := by
    rw [List.length_append, ByteOrder.length_bytes]
    exact (by decide : 4 + 1 ≤ 58)
  have hpieces : ∀ piece ∈ chunks Channel.payloadLimit image.data,
      piece.length ≤ Channel.payloadLimit := fun _ => length_le_of_mem_chunks (by decide)
  unfold installHid
  refine prompt_unless rfl fun _ => Within.prompt ?_
  refine (Channel.within_establish hwrites).bind fun stream => ?_
  refine (Channel.within_carryOut hwrites stream _ (Channel.one_fits _) _).bind fun stream => ?_
  refine (Channel.within_carryOut hwrites stream _ hheader _).bind fun stream => ?_
  refine (within_progress _ _ _).bind fun _ => ?_
  refine (within_writeImage hwrites _ hpieces _ stream).bind fun stream => ?_
  refine (Channel.within_carryOut hwrites stream _ (Channel.one_fits _) _).bind fun stream => ?_
  refine (Channel.within_acknowledgeAndWait hwrites stream).bind fun (_, stream) => ?_
  refine (Channel.within_acknowledgeAndWait hwrites stream).bind fun (_, stream) => ?_
  refine Within.bind ?_ fun stream => Within.bind ?_ fun stream =>
    (within_progress _ _ _).bind fun _ => Channel.within_close hwrites stream
  -- the checksum is confirmed
  · refine (Channel.within_converse hwrites stream _ (Channel.one_fits _) _).bind fun (packet, stream) => ?_
    refine (within_packet_demand packet _ _).bind fun body => ?_
    refine within_unless (within_refuse rfl) ?_
    exact (within_compareChecksum hdiffers _ _).bind fun _ => within_pure _
  -- the update is finished
  · refine (Channel.within_sendRequest hwrites stream _ (Channel.one_fits _)).bind fun stream => ?_
    refine (Channel.within_receivePacket stream _).bind fun (_, stream) => ?_
    refine (Channel.within_acknowledgeAndWait hwrites stream).bind fun (packet, stream) => ?_
    exact (within_packet_demand packet _ _).bind fun _ => within_pure _

end Reports

/-! ## Regions over the network -/

section Network

theorem within_requestMessage {parameters : ParameterWriter} (command : UInt8)
    (h : terms.writes ([0x20, command, 0x80] ++ parameters.finish)) (timeout : Nat) :
    (requestMessage command parameters timeout).Within terms :=
  (within_send h).bind fun _ => (within_receive _).bind fun message =>
    within_check (blameless_responseOfMessage message)

/-- Parameters that can be encoded, in a message of a modest length. -/
def Modest (parameters : Except (Halt ProtocolError) ParameterWriter) : Prop :=
  ∃ w, parameters = .ok w ∧ w.finish.length ≤ 1027

theorem modest_none : Modest (.ok netLink.none) :=
  ⟨_, rfl, by decide⟩

theorem modest_byte (region : UInt8) : Modest (netLink.none.byte region) :=
  ⟨_, rfl, by simp [ParameterWriter.finish, Link.none]⟩

theorem modest_header (length : UInt32) (region : UInt8) :
    Modest (netLink.none.dword length >>= (·.byte region)) :=
  ⟨_, rfl, by simp [ParameterWriter.finish, Link.none, ByteOrder.bytes32]⟩

theorem exists_encode_piece (n : Nat) : ∃ b, Length.encode (Length.piece n) = .ok b := by
  have hcases : Length.piece n = 1024 ∨ Length.piece n = 512 ∨ Length.piece n ≤ 63 ∨
      Length.piece n % 4 = 0 ∧ Length.piece n ≤ 252 := by
    unfold Length.piece
    grind
  unfold Length.encode
  split
  · exact ⟨_, rfl⟩
  split
  · exact ⟨_, rfl⟩
  split
  · exact ⟨_, rfl⟩
  · omega

theorem piece_le (n : Nat) : Length.piece n ≤ 1024 := by
  unfold Length.piece
  grind

theorem length_of_mem_pieces {data piece : List UInt8} (h : piece ∈ pieces data) :
    ∃ n, piece.length = Length.piece n := by
  fun_induction pieces data with
  | case1 => exact nomatch h
  | case2 b rest size ih =>
    rcases List.mem_cons.1 h with rfl | h
    · obtain ⟨hpos, hle⟩ := piece_bounds (Nat.zero_lt_succ rest.length)
      refine ⟨rest.length + 1, ?_⟩
      change 0 < size at hpos
      change size ≤ rest.length + 1 at hle
      change _ = size
      rw [List.length_cons, List.length_take]
      omega
    · exact ih h

/-- A piece of an image has a length that can be announced, and a modest one. -/
theorem modest_piece {data piece : List UInt8} (h : piece ∈ pieces data) :
    Modest (netLink.none.bytes piece) := by
  obtain ⟨n, hn⟩ := length_of_mem_pieces h
  obtain ⟨b, hb⟩ := exists_encode_piece n
  have hle := piece_le n
  have hbytes : netLink.none.bytes piece = netLink.none.push (b :: piece) := by
    rw [ParameterWriter.bytes, hn, hb]
  refine ⟨_, hbytes, ?_⟩
  simp only [ParameterWriter.finish, Link.none, List.nil_append, List.flatten_cons,
    List.flatten_nil, List.append_nil, List.length_cons]
  omega

variable (hwrites : ∀ report, report.length ≤ 1030 → terms.writes report)
include hwrites

theorem within_requestMessage_none (command : UInt8) (timeout : Nat) :
    (netLink.request command netLink.none timeout).Within terms :=
  within_requestMessage command (hwrites _ (by simp [ParameterWriter.finish, Link.none])) timeout

theorem within_askNet {parameters : ParameterWriter} (h : parameters.finish.length ≤ 1027)
    (command : UInt8) (timeout : Nat) (doing : String) :
    (netLink.ask command parameters timeout doing).Within terms := by
  refine within_ask (within_requestMessage command (hwrites _ ?_) timeout) doing
  rw [List.length_append]
  show 3 + parameters.finish.length ≤ 1030
  omega

theorem within_callNet {parameters : Except (Halt ProtocolError) ParameterWriter}
    (h : Modest parameters) (command : UInt8) (doing : String) :
    (callNet command parameters doing).Within terms := by
  obtain ⟨w, rfl, hlength⟩ := h
  exact within_askNet hwrites hlength command _ doing

theorem within_receiveNetRegion (total answers : Nat) :
    ∀ (received : Nat) (past : List (List UInt8)),
      (receiveNetRegion total answers received past).Within terms := by
  induction answers with
  | zero => exact fun _ _ => within_pure _
  | succ answers ih =>
    intro received past
    unfold receiveNetRegion
    split
    · exact within_pure _
    refine (within_callNet hwrites modest_none _ _).bind fun parameters => ?_
    refine (within_check (parameters.blameless_bytes 0)).bind fun chunk => ?_
    exact within_unless (within_refuse rfl) ((within_progress _ _ _).bind fun _ => ih _ _)

theorem within_fetchNetRegion (region : Region) : (fetchNetRegion region).Within terms := by
  refine (within_callNet hwrites (modest_byte _) _ _).bind fun parameters => ?_
  refine (within_check (parameters.blameless_dword 0)).bind fun total => ?_
  refine (within_receiveNetRegion hwrites _ _ _ _).bind fun chunks => ?_
  exact (within_callNet hwrites modest_none _ _).bind fun _ => within_pure _

theorem within_writeNetImage (total : Nat) {pieces : List (List UInt8)}
    (hpieces : ∀ piece ∈ pieces, Modest (netLink.none.bytes piece)) :
    ∀ written, (writeNetImage total pieces written).Within terms := by
  induction pieces with
  | nil => exact fun _ => within_pure _
  | cons piece rest ih =>
    intro written
    obtain ⟨hpiece, hrest⟩ := List.forall_mem_cons.1 hpieces
    refine (within_callNet hwrites hpiece _ _).bind fun _ => ?_
    exact (within_progress _ _ _).bind fun _ => ih hrest _

theorem within_confirmNetImage (hdiffers : ∀ cause, terms.ends (.failed (.mismatch cause)))
    (region : UInt8) (image : List UInt8) : (confirmNetImage region image).Within terms := by
  obtain ⟨w, hw, hlength⟩ := modest_byte region
  unfold confirmNetImage
  rw [hw]
  refine (within_askNet hwrites hlength _ _ _).bind fun answer => ?_
  exact (within_check (answer.blameless_word 0)).bind fun _ => within_compareChecksum hdiffers _ _

/-- Installing an image over the network is refused before any traffic, or not for the image's sake. -/
theorem prompt_installNet (hdiffers : ∀ cause, terms.ends (.failed (.mismatch cause)))
    (image : Image) : (installNet image).Prompt terms := by
  unfold installNet
  refine prompt_unless rfl fun _ => Within.prompt ?_
  refine (within_callNet hwrites (modest_byte _) _ _).bind fun _ => ?_
  refine (within_callNet hwrites (modest_header _ _) _ _).bind fun _ => ?_
  refine (within_progress _ _ _).bind fun _ => ?_
  refine (within_writeNetImage hwrites _ (fun _ => modest_piece) _).bind fun _ => ?_
  refine (within_callNet hwrites (modest_byte _) _ _).bind fun _ => ?_
  refine (within_confirmNetImage hwrites hdiffers _ _).bind fun _ => ?_
  exact (within_callNet hwrites (modest_byte _) _ _).bind fun _ => within_progress _ _ _

end Network

end Z

end UniversalRemote
