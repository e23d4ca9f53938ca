import Mathlib
import UniversalRemote.Link.Script
import UniversalRemote.Proofs.Z.Message
import UniversalRemote.Proofs.Z.Update
/-!
# Updates are finished only when they are confirmed

A remote puts an update in force when it is asked to finish it. Whatever the remote and the link do,
the host asks for this only behind an image that was announced, written completely and confirmed by
its checksum, over either kind of link (`install_confirmed`). Each exchange of an update has one
lemma on what it writes and what answers it.
-/

namespace UniversalRemote.Z

open Exchange

variable {allowed : List Step → Report → Prop} {past : List Step} {image : Image}

/-! ## Exchanges on a stream -/

theorem request_stream {payload : List UInt8} (h : payload.length ≤ Channel.payloadLimit)
    (flags seq ack command : UInt8) :
    Wire.packets.request ([UInt8.ofNat (5 + payload.length), flags, seq, ack, 0x00, command] ++
      payload) = some (command, payload) := by
  have hlength : (UInt8.ofNat (5 + payload.length)).toNat = 5 + payload.length := by
    simp only [Channel.payloadLimit] at h
    rw [UInt8.toNat_ofNat']
    exact Nat.mod_eq_of_lt (by omega)
  have htake : ([UInt8.ofNat (5 + payload.length), flags, seq, ack, 0x00, command] ++ payload).take
      (5 + payload.length + 1) =
      [UInt8.ofNat (5 + payload.length), flags, seq, ack, 0x00, command] ++ payload :=
    List.take_of_length_le (by simp; omega)
  simp only [Wire.packets, List.cons_append, List.headD_cons, hlength]
  simp only [List.cons_append] at htake
  rw [htake]
  rfl

theorem ensures_sendRequest {post : List Step → Stream → Prop} {stream : Stream} {command : UInt8}
    {payload : List UInt8}
    (hallowed : ∀ report, Wire.packets.request report = some (command, payload) →
      allowed past report)
    (hpost : ∀ report after, Wire.packets.request report = some (command, payload) →
      post (past ++ [.wrote report (.ok ())]) after) :
    (Channel.sendRequest stream command payload).Ensures allowed post past := by
  rw [Channel.sendRequest]
  by_cases hroom : Channel.payloadLimit < payload.length
  · rw [if_pos hroom]
    exact ensures_throw _
  · rw [if_neg hroom]
    have hrequest := request_stream (Nat.not_lt.1 hroom) (stream.header 0).1.flags
      (stream.header 0).1.seq (stream.header 0).1.ack command
    exact ensures_bind (ensures_send (hallowed _ hrequest) (ensures_pure (hpost _ _ hrequest)))

theorem ensures_acknowledge {post : List Step → Stream → Prop} {stream : Stream} {flags : UInt8}
    (hallowed : ∀ report, Wire.packets.Silent report → allowed past report)
    (hpost : ∀ report after, Wire.packets.Silent report →
      post (past ++ [.wrote report (.ok ())]) after) :
    (Channel.acknowledge stream flags).Ensures allowed post past :=
  ensures_bind (ensures_send (hallowed _ rfl) (ensures_pure (hpost _ _ rfl)))

theorem ensures_receivePacket {post : List Step → Packet × Stream → Prop} {stream : Stream}
    {timeout : Nat}
    (h : ∀ received packet after, Packet.ofReport received = .ok packet →
      post (past ++ [.read timeout (.ok received)]) (packet, after)) :
    (Channel.receivePacket stream timeout).Ensures allowed post past := by
  refine ensures_bind (ensures_receive fun received => ?_)
  refine ensures_bind (ensures_check fun after _ => ?_)
  exact ensures_bind (ensures_check fun packet hpacket => ensures_pure (h _ packet after hpacket))

theorem ensures_demand {post : List Step → List UInt8 → Prop} {packet : Packet} {command : UInt8}
    {doing : String}
    (h : packet.command = some command → packet.status = statusOk → post past packet.body) :
    (packet.demand command doing).Ensures allowed post past := by
  rw [Packet.demand]
  by_cases hcommand : packet.command ≠ some command
  · rw [if_pos hcommand]
    exact ensures_throw _
  · rw [if_neg hcommand]
    by_cases hstatus : packet.status ≠ statusOk
    · rw [if_pos hstatus]
      exact ensures_throw _
    · rw [if_neg hstatus]
      exact ensures_pure (h (not_not.1 hcommand) (not_not.1 hstatus))

theorem answer_packet {received : Report} {packet : Packet} {command : UInt8}
    (h : Packet.ofReport received = .ok packet) (hcommand : packet.command = some command)
    (hstatus : packet.status = statusOk) :
    Wire.packets.answer received = some ⟨command, statusOk,
      if packet.body.length < 2 then none else some (ByteOrder.little.word16 packet.body)⟩ := by
  obtain ⟨flags, answered, status, body⟩ := packet
  obtain rfl : answered = some command := hcommand
  obtain rfl : status = statusOk := hstatus
  simp only [Wire.packets, h]

theorem ensures_carryOut (stream : Stream) (command : UInt8) (payload : List UInt8)
    (doing : String)
    (hallowed : ∀ report, Wire.packets.request report = some (command, payload) →
      allowed past report) :
    (Channel.carryOut stream command payload doing).Ensures allowed
      (fun later _ => ∃ word, Wire.packets.Called past command payload later word) past := by
  refine ensures_bind (ensures_bind (ensures_sendRequest hallowed fun report after hrequest => ?_))
  refine ensures_receivePacket fun received packet after hpacket => ?_
  refine ensures_bind (ensures_demand fun hcommand hstatus => ensures_pure ?_)
  exact ⟨_, report, promptWait, received, hrequest, answer_packet hpacket hcommand hstatus, rfl⟩

theorem ensures_compareChecksum {post : List Step → Unit → Prop} {data : List UInt8}
    {actual : UInt16} (h : actual = imageChecksum data → post past ()) :
    (compareChecksum data actual).Ensures allowed post past := by
  rw [compareChecksum]
  by_cases hactual : actual ≠ imageChecksum data
  · rw [if_pos hactual]
    exact ensures_throw _
  · rw [if_neg hactual]
    exact ensures_pure (h (not_not.1 hactual))

theorem ensures_confirmImage (stream : Stream) (region : UInt8) (data : List UInt8)
    (hallowed : ∀ report, Wire.packets.request report = some (0x45, [region]) →
      allowed past report) :
    (confirmImage stream region data).Ensures allowed
      (fun later _ => Wire.packets.Called past 0x45 [region] later (some (imageChecksum data)))
      past := by
  refine ensures_bind (ensures_bind (ensures_sendRequest hallowed fun report after hrequest => ?_))
  refine ensures_receivePacket fun received packet after hpacket => ?_
  refine ensures_bind (ensures_demand fun hcommand hstatus => ?_)
  have hanswer := answer_packet hpacket hcommand hstatus
  by_cases hshort : packet.body.length < 2
  · rw [if_pos hshort]
    exact ensures_throw _
  · rw [if_neg hshort] at hanswer ⊢
    refine ensures_bind (ensures_compareChecksum fun hactual => ensures_pure ?_)
    rw [hactual] at hanswer
    exact ⟨report, checksumWait, received, hrequest, hanswer, rfl⟩

theorem ensures_finishUpdate (stream : Stream) (region : UInt8)
    (hconfirmed : Wire.packets.Confirmed image past) :
    (finishUpdate stream region).Ensures (Wire.packets.Admits image)
      (fun later _ => ∃ word, Wire.packets.Answered later 0x46 word) past := by
  refine ensures_bind (ensures_sendRequest (fun report hrequest => ?_) fun report _ hrequest => ?_)
  · exact Wire.admits_of_request hrequest (by decide) fun _ => hconfirmed
  refine ensures_bind (ensures_receivePacket fun first _ _ _ => ?_)
  refine ensures_bind (ensures_bind (ensures_acknowledge (fun _ => Wire.admits_of_silent)
    fun silent _ hsilent => ?_))
  refine ensures_receivePacket fun received packet _ hpacket => ?_
  refine ensures_bind (ensures_demand fun hcommand hstatus => ensures_pure ?_)
  refine ⟨_, past, report, [.read promptWait (.ok first), .wrote silent (.ok ())], promptWait,
    received, [], [region], by simp, hrequest, ?_, answer_packet hpacket hcommand hstatus⟩
  intro other hother
  obtain rfl : silent = other := by simpa using hother
  exact hsilent

/-! ## Exchanges that carry no request -/

theorem writes_receivePacket (stream : Stream) (timeout : Nat) :
    (Channel.receivePacket stream timeout).Writes Wire.packets.Silent :=
  writes_bind (writes_receive timeout) fun _ => writes_bind (writes_check _) fun _ =>
    writes_bind (writes_check _) fun _ => writes_pure _

theorem writes_acknowledge (stream : Stream) (flags : UInt8) :
    (Channel.acknowledge stream flags).Writes Wire.packets.Silent :=
  writes_bind (writes_send rfl) fun _ => writes_pure _

theorem writes_acknowledgeAndWait (stream : Stream) :
    (Channel.acknowledgeAndWait stream).Writes Wire.packets.Silent :=
  writes_bind (writes_acknowledge stream 0) fun _ => writes_receivePacket _ _

theorem writes_establish : Channel.establish.Writes Wire.packets.Silent := by
  have hrequest : (requestDatagram 0x40 hidLink.none promptWait).Writes Wire.packets.Silent :=
    writes_bind (writes_send rfl) fun _ => writes_bind (writes_receive _) fun _ => writes_check _
  refine writes_bind (writes_bind hrequest fun response => writes_bind ?_ fun _ => writes_pure _)
    fun _ => writes_bind (writes_receivePacket _ _) ?_
  · rw [demand]
    split
    · exact writes_throw _
    · split
      · exact writes_throw _
      · exact writes_pure _
  · rintro ⟨packet, stream⟩
    by_cases hsyn : packet.flags &&& synFlag = 0
    · simp only [if_pos hsyn]
      exact writes_throw _
    · simp only [if_neg hsyn]
      exact writes_pure _

theorem writes_awaitClosing (reads : Nat) (stream : Stream) :
    (Channel.awaitClosing reads stream).Writes Wire.packets.Silent := by
  induction reads generalizing stream with
  | zero => exact writes_pure _
  | succ reads ih =>
    refine writes_bind (writes_attempt (writes_receivePacket stream promptWait)) fun outcome => ?_
    rcases outcome with cause | ⟨packet, after⟩
    · by_cases htimedOut : cause.timedOut
      · simp only [if_pos htimedOut]
        exact writes_pure _
      · simp only [if_neg htimedOut]
        exact writes_throw _
    · by_cases hfin : packet.flags &&& finFlag ≠ 0
      · simp only [if_pos hfin]
        exact writes_pure _
      · simp only [if_neg hfin]
        exact ih after

theorem writes_close (stream : Stream) : (Channel.close stream).Writes Wire.packets.Silent := by
  refine writes_bind (writes_acknowledge stream finFlag) fun stream => ?_
  refine writes_bind (writes_awaitClosing _ stream) fun closed => ?_
  cases closed with
  | none => exact writes_pure _
  | some stream =>
    refine writes_bind (writes_acknowledge stream 0) fun _ => ?_
    refine writes_bind (writes_attempt (writes_receive promptWait)) fun outcome => ?_
    rcases outcome with cause | report
    · by_cases htimedOut : cause.timedOut
      · simp only [if_pos htimedOut]
        exact writes_pure _
      · simp only [if_neg htimedOut]
        exact writes_throw _
    · exact writes_pure _

/-! ## Installing over a stream -/

/-- The pieces that are left are written, each behind the answer to the one before. -/
theorem ensures_writeImage (total : Nat) (pieces : List (List UInt8)) (written : Nat)
    (stream : Stream) (hannounced : Wire.packets.Announced image past)
    (hleft : Wire.packets.delivered past ++ pieces.flatten = image.data) :
    (writeImage total pieces written stream).Ensures (Wire.packets.Admits image)
      (fun later _ => Wire.packets.Announced image later ∧
        Wire.packets.delivered later = image.data) past := by
  induction pieces generalizing past written stream with
  | nil => exact ensures_pure ⟨hannounced, by simpa using hleft⟩
  | cons piece rest ih =>
    rw [List.flatten_cons, ← List.append_assoc] at hleft
    refine (ensures_carryOut stream 0x43 piece _ fun report hrequest => ?_).bind ?_
    · exact Wire.admits_of_piece hrequest ⟨rest.flatten, hleft⟩
    rintro later after ⟨word, hcalled⟩
    refine ensures_bind (ensures_notify ?_)
    refine ih _ after ?_ ?_
    · exact (hannounced.mono hcalled.le).mono (List.prefix_append _ _)
    · rw [Wire.delivered_told, hcalled.delivered]
      exact hleft

theorem ensures_installHid (hlength : image.data.length < 0x100000000) :
    (installHid image).Ensures (Wire.packets.Admits image)
      (fun later _ => ∃ word, Wire.packets.Answered later 0x46 word) [] := by
  have hsilent : ∀ later report, Wire.packets.Silent report →
      Wire.packets.Admits image later report := fun _ _ => Wire.admits_of_silent
  rw [installHid]
  split
  · exact ensures_throw _
  refine (writes_establish.ensures hsilent []).bind fun past stream hquiet => ?_
  have hnone : Wire.packets.delivered past = [] := Wire.delivered_of_quiet hquiet
  refine (ensures_carryOut stream 0x41 _ _ fun report hrequest => ?_).bind ?_
  · exact Wire.admits_of_request hrequest (by decide) fun hfinish => absurd hfinish (by decide)
  rintro past stream ⟨word, hstarted⟩
  replace hnone : Wire.packets.delivered past = [] := by rw [hstarted.delivered, hnone]; rfl
  refine (ensures_carryOut stream 0x42 _ _ fun report hrequest => ?_).bind ?_
  · exact Wire.admits_of_request hrequest (by decide) fun hfinish => absurd hfinish (by decide)
  rintro past stream ⟨word, hheader⟩
  replace hnone : Wire.packets.delivered past = [] := by rw [hheader.delivered, hnone]; rfl
  obtain ⟨hannounces, hregion⟩ := Wire.header_announces .little hlength image.region.code
  have hannounced : Wire.packets.Announced image past := hheader.announced hannounces hregion
  refine ensures_bind (ensures_notify ?_)
  refine (ensures_writeImage _ _ 0 stream (hannounced.mono (List.prefix_append _ _)) ?_).bind ?_
  · rw [Wire.delivered_told, hnone, flatten_chunks]
    rfl
  rintro past stream ⟨hannounced, hdelivered⟩
  refine (ensures_carryOut stream 0x44 _ _ fun report hrequest => ?_).bind ?_
  · exact Wire.admits_of_request hrequest (by decide) fun hfinish => absurd hfinish (by decide)
  rintro past stream ⟨word, hended⟩
  replace hannounced := hannounced.mono hended.le
  replace hdelivered : Wire.packets.delivered past = image.data := by
    rw [hended.delivered, hdelivered]
    exact List.append_nil _
  -- two acknowledgements that carry no request
  refine ((writes_acknowledgeAndWait stream).ensures hsilent _).bind ?_
  rintro middle ⟨packet, stream⟩ hfirst
  refine ((writes_acknowledgeAndWait stream).ensures hsilent _).bind ?_
  rintro later ⟨packet, stream⟩ hsecond
  have hquiet := hfirst.trans hsecond
  have hlater := Wire.quiet_prefix hquiet
  refine (ensures_confirmImage stream _ _ fun report hrequest => ?_).bind ?_
  · exact Wire.admits_of_request hrequest (by decide) fun hfinish => absurd hfinish (by decide)
  intro past stream hchecked
  have hconfirmed : Wire.packets.Confirmed image past := by
    refine ⟨(hannounced.mono hlater).mono hchecked.le, ?_, ⟨word, ?_⟩, hchecked.answered⟩
    · rw [hchecked.delivered, Wire.delivered_of_quiet hquiet, hdelivered]
      exact List.append_nil _
    · exact (hended.answered.mono hlater).mono hchecked.le
  refine (ensures_finishUpdate stream _ hconfirmed).bind ?_
  rintro past stream ⟨word, hfinished⟩
  refine ensures_bind (ensures_notify ?_)
  refine ((writes_close stream).ensures hsilent _).weaken fun later hlater _ _ => ⟨word, ?_⟩
  exact (hfinished.mono (List.prefix_append _ _)).mono hlater

/-! ## Installing over a network -/

theorem request_message {parameters : ParameterWriter} {values : List (List UInt8)}
    (h : parameters.Holds values) (command : UInt8) :
    Wire.messages.request ([0x20, command, 0x80] ++ parameters.finish) =
      some (command, values.flatten) := by
  have hparse := h.parse [0x20, command, 0x80] [] .big
  rw [List.append_nil] at hparse
  have hlist : ParameterList.ofNetwork ([0x20, command, 0x80] ++ parameters.finish) =
      .ok ⟨.big, values⟩ := hparse
  simp only [Wire.messages, hlist]
  rfl

theorem ensures_ask {parameters : ParameterWriter} {values : List (List UInt8)}
    (h : parameters.Holds values) (command : UInt8) (timeout : Nat) (doing : String)
    (hallowed : ∀ report, Wire.messages.request report = some (command, values.flatten) →
      allowed past report) :
    (netLink.ask command parameters timeout doing).Ensures allowed
      (fun later answer => Wire.messages.Called past command values.flatten later
        (answer.word 0).toOption) past := by
  have hrequest := request_message h command
  refine ensures_answer (hallowed _ hrequest) fun received p hmessage => ?_
  refine ⟨_, timeout, received, hrequest, ?_, rfl⟩
  simp only [Wire.messages, hmessage]

theorem ensures_callNet {parameters : Except (Halt ProtocolError) ParameterWriter}
    {values : List (List UInt8)} (h : ∀ writer, parameters = .ok writer → writer.Holds values)
    (command : UInt8) (doing : String)
    (hallowed : ∀ report, Wire.messages.request report = some (command, values.flatten) →
      allowed past report) :
    (callNet command parameters doing).Ensures allowed
      (fun later _ => ∃ word, Wire.messages.Called past command values.flatten later word)
      past := by
  refine ensures_bind (ensures_checkHalt fun writer hwriter => ?_)
  exact (ensures_ask (h writer hwriter) command promptWait doing hallowed).weaken
    fun _ _ answer hcalled => ⟨_, hcalled⟩

theorem holds_region {region : UInt8} {writer : ParameterWriter}
    (h : netLink.none.byte region = .ok writer) : writer.Holds [[region]] :=
  (ParameterWriter.holds_empty .big).byte h

theorem holds_header {length : UInt32} {region : UInt8} {writer : ParameterWriter}
    (h : (netLink.none.dword length >>= (·.byte region)) = .ok writer) :
    writer.Holds [ByteOrder.big.bytes32 length, [region]] := by
  cases hdword : netLink.none.dword length with
  | error halt =>
    rw [hdword] at h
    cases h
  | ok first =>
    rw [hdword] at h
    exact ((ParameterWriter.holds_empty .big).dword hdword).byte h

theorem flatten_pieces (data : List UInt8) : (pieces data).flatten = data := by
  fun_induction pieces data with
  | case1 => rfl
  | case2 b rest size ih => simp [ih]

theorem ensures_writeNetImage (total : Nat) (pieces : List (List UInt8)) (written : Nat)
    (hannounced : Wire.messages.Announced image past)
    (hleft : Wire.messages.delivered past ++ pieces.flatten = image.data) :
    (writeNetImage total pieces written).Ensures (Wire.messages.Admits image)
      (fun later _ => Wire.messages.Announced image later ∧
        Wire.messages.delivered later = image.data) past := by
  induction pieces generalizing past written with
  | nil => exact ensures_pure ⟨hannounced, by simpa using hleft⟩
  | cons piece rest ih =>
    rw [List.flatten_cons, ← List.append_assoc] at hleft
    have hpiece : [piece].flatten = piece := List.append_nil piece
    have hholds : ∀ writer, netLink.none.bytes piece = .ok writer → writer.Holds [piece] :=
      fun writer => (ParameterWriter.holds_empty .big).bytes
    refine (ensures_callNet hholds 0x43 _ fun report hrequest => ?_).bind ?_
    · rw [hpiece] at hrequest
      exact Wire.admits_of_piece hrequest ⟨rest.flatten, hleft⟩
    rintro later - ⟨word, hcalled⟩
    rw [hpiece] at hcalled
    refine ensures_bind (ensures_notify ?_)
    refine ih _ ?_ ?_
    · exact (hannounced.mono hcalled.le).mono (List.prefix_append _ _)
    · rw [Wire.delivered_told, hcalled.delivered]
      exact hleft

theorem ensures_confirmNetImage (region : UInt8) (data : List UInt8)
    (hallowed : ∀ report, Wire.messages.request report = some (0x45, [region]) →
      allowed past report) :
    (confirmNetImage region data).Ensures allowed
      (fun later _ => Wire.messages.Called past 0x45 [region] later (some (imageChecksum data)))
      past := by
  refine ensures_bind (ensures_checkHalt fun writer hwriter => ?_)
  refine (ensures_ask (holds_region hwriter) 0x45 checksumWait _ hallowed).bind ?_
  intro later answer hcalled
  refine ensures_bind (ensures_check fun actual hword => ensures_compareChecksum fun hactual => ?_)
  rw [hword, hactual] at hcalled
  exact hcalled

theorem ensures_installNet (hlength : image.data.length < 0x100000000) :
    (installNet image).Ensures (Wire.messages.Admits image)
      (fun later _ => ∃ word, Wire.messages.Answered later 0x46 word) [] := by
  rw [installNet]
  split
  · exact ensures_throw _
  refine (ensures_callNet (fun _ => holds_region) 0x41 _ fun report hrequest => ?_).bind ?_
  · exact Wire.admits_of_request hrequest (by decide) fun hfinish => absurd hfinish (by decide)
  rintro past - ⟨word, hstarted⟩
  have hnone : Wire.messages.delivered past = [] := hstarted.delivered
  refine (ensures_callNet (fun _ => holds_header) 0x42 _ fun report hrequest => ?_).bind ?_
  · exact Wire.admits_of_request hrequest (by decide) fun hfinish => absurd hfinish (by decide)
  rintro past - ⟨word, hheader⟩
  replace hnone : Wire.messages.delivered past = [] := by rw [hheader.delivered, hnone]; rfl
  have hbytes : ByteOrder.big.bytes32 (UInt32.ofNat image.data.length) =
      ByteOrder.big.bytes 4 image.data.length := by
    rw [ByteOrder.bytes32, UInt32.toNat_ofNat', Nat.mod_eq_of_lt hlength]
  rw [List.flatten_cons, List.flatten_cons, List.flatten_nil, List.append_nil, hbytes] at hheader
  obtain ⟨hannounces, hregion⟩ := Wire.header_announces .big hlength image.region.code
  have hannounced : Wire.messages.Announced image past := hheader.announced hannounces hregion
  refine ensures_bind (ensures_notify ?_)
  refine (ensures_writeNetImage _ _ 0 (hannounced.mono (List.prefix_append _ _)) ?_).bind ?_
  · rw [Wire.delivered_told, hnone, flatten_pieces]
    rfl
  rintro past - ⟨hannounced, hdelivered⟩
  refine (ensures_callNet (fun _ => holds_region) 0x44 _ fun report hrequest => ?_).bind ?_
  · exact Wire.admits_of_request hrequest (by decide) fun hfinish => absurd hfinish (by decide)
  rintro middle - ⟨word, hended⟩
  refine (ensures_confirmNetImage _ _ fun report hrequest => ?_).bind ?_
  · exact Wire.admits_of_request hrequest (by decide) fun hfinish => absurd hfinish (by decide)
  intro later _ hchecked
  have hconfirmed : Wire.messages.Confirmed image later := by
    refine ⟨(hannounced.mono hended.le).mono hchecked.le, ?_, ⟨word, ?_⟩, hchecked.answered⟩
    · rw [hchecked.delivered, hended.delivered, hdelivered]
      simp
    · exact hended.answered.mono hchecked.le
  refine (ensures_callNet (fun _ => holds_region) 0x46 _ fun report hrequest => ?_).bind ?_
  · exact Wire.admits_of_request hrequest (by decide) fun _ => hconfirmed
  rintro past - ⟨word, hfinished⟩
  refine ensures_notify ⟨word, ?_⟩
  exact hfinished.answered.mono (List.prefix_append _ _)

/-- Whatever the remote and the link do, an update is finished only behind an image that was
announced, written completely and confirmed by its checksum. -/
theorem install_confirmed (image : Image) (hlength : image.data.length < 0x100000000)
    (device : Device σ) (state : σ) :
    Wire.packets.Installs image ((installHid image).run.run device state) ∧
      Wire.messages.Installs image ((installNet image).run.run device state) :=
  ⟨Wire.installs_of_ensures (ensures_installHid hlength) device state,
    Wire.installs_of_ensures (ensures_installNet hlength) device state⟩

/-- Two bytes over either kind of link, from the request to start down to the answer to the last. -/
theorem install_confirmed_two_bytes :
    let image := Image.ofConfig [0x01, 0x02]
    let packets : Script := { reads := [.report [4, 0x00, 0x00, 0x40, 0x01], .report [3, 0x40, 7, 0],
      .report [6, 0x80, 8, 1, 0x00, 0x41, 0x01], .report [6, 0x80, 11, 4, 0x00, 0x42, 0x01],
      .report [6, 0x80, 14, 11, 0x00, 0x43, 0x01], .report [6, 0x80, 17, 15, 0x00, 0x44, 0x01],
      .report [3, 0x80, 20, 18], .report [3, 0x80, 20, 18],
      .report [8, 0x80, 20, 21, 0x00, 0x45, 0x01, 0x20, 0x41], .report [3, 0x80, 25, 24],
      .report [6, 0x80, 25, 24, 0x00, 0x46, 0x01]] }
    let messages : Script := { reads := [.report [0x20, 0x41, 0x81, 0], .report [0x20, 0x42, 0x81, 0],
      .report [0x20, 0x43, 0x81, 0], .report [0x20, 0x44, 0x81, 0],
      .report [0x20, 0x45, 0x81, 1, 2, 0x41, 0x20], .report [0x20, 0x46, 0x81, 0]] }
    let hid := (installHid image).run.run Script.device packets
    let net := (installNet image).run.run Script.device messages
    (hid.result = .ok () ∧ net.result = .ok ()) ∧
      Wire.packets.Installs image hid ∧ Wire.messages.Installs image net := by
  refine ⟨⟨by cbv, by cbv⟩, ?_, ?_⟩
  · exact (install_confirmed (Image.ofConfig [0x01, 0x02]) (by decide) Script.device _).1
  · exact (install_confirmed (Image.ofConfig [0x01, 0x02]) (by decide) Script.device _).2

end UniversalRemote.Z
