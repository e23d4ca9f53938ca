import UniversalRemote.Proofs.Z.Numbering
/-!
# Transfers keep their numbers

Whatever a remote sends and whenever it falls silent, a region read or an update numbers what it
sends by what it received, and ends at the first packet that is not the next one
(`transfers_conform`). Each exchange of a transfer takes an open stream to an open stream; only
`close` goes on from there.
-/

namespace UniversalRemote.Z

open Exchange

variable {past : List Step} {stream : Stream}

/-! ## Exchanges on an open stream -/

theorem concludes_receivePacket (h : Awaits past stream) (timeout : Nat) :
    (Channel.receivePacket stream timeout).Concludes Numbered
      (fun later halt => Excused later halt ∧ sent later = sent past)
      (fun later result => Tracks later result.2 ∧ sent later = sent past ∧
        ∃ report, taken later = taken past ++ [report] ∧ result.1.flags = report.getD 1 0) past := by
  refine concludes_bind (concludes_receive (fun report => ?_) fun cause => ?_)
  · have hsent : sent (past ++ [.read timeout (.ok report)]) = sent past := sent_read _ _
    refine concludes_bind (concludes_check (fun after habsorb => ?_) fun cause habsorb => ?_)
    · have htracks := h.received habsorb timeout
      refine concludes_bind (concludes_check (fun packet hpacket => ?_) fun cause _ => ?_)
      · refine concludes_pure ⟨htracks, hsent, report, taken_read h.answered _ _, ?_⟩
        exact flags_ofReport hpacket
      · exact ⟨htracks.clean.excused _, hsent⟩
    · exact ⟨h.refused habsorb timeout, hsent⟩
  · exact ⟨(h.clean.failedRead timeout cause).excused _, sent_read _ _⟩

theorem concludes_receivePacket_open (h : Open past stream) (timeout : Nat) :
    (Channel.receivePacket stream timeout).Concludes Numbered Excused
      (fun later result => Open later result.2) past := by
  refine (concludes_receivePacket h.toAwaits timeout).weaken (fun _ _ hleft => hleft.1) ?_
  rintro later ⟨packet, after⟩ ⟨htracks, hsent, report, htaken, -⟩
  refine ⟨htracks, h.begins.of_taken htaken, ?_⟩
  rw [hsent]
  exact h.unclosed

theorem concludes_sendNext (h : Tracks past stream) {packet : Report}
    (hnext : NextPacket past packet) {post : List Step → Unit → Prop}
    (hpost : post (past ++ [.wrote packet (.ok ())]) ()) :
    (send packet).Concludes Numbered Excused post past :=
  concludes_send ⟨fun hnone => absurd hnone h.requested, fun _ => hnext⟩ hpost
    fun _ => (h.clean.wrote _ _).excused _

/-- A packet that does not close the stream. -/
theorem concludes_sendPacket (h : Open past stream) {length : UInt8} {content : List UInt8}
    (hlength : length.toNat = content.length + 3) :
    (send (length :: (stream.header 0).1.flags :: (stream.header 0).1.seq ::
      (stream.header 0).1.ack :: content)).Concludes Numbered Excused
        (fun later _ => Open later (stream.header 0).2) past := by
  obtain ⟨-, -, hfin⟩ := flagged_header stream (.inl rfl) length
    ((stream.header 0).1.seq :: (stream.header 0).1.ack :: content)
  have hnext := h.nextPacket h.begins hlength (.inl rfl) (fun hextra => absurd hextra (by decide))
    fun closing hmem hflag => absurd hflag (h.unclosed closing hmem)
  refine concludes_sendNext h.toTracks hnext ⟨h.wrote h.unclosed 0, h.begins.wrote _ _, ?_⟩
  rw [sent_wrote h.requested]
  intro p hmem
  rcases List.mem_append.1 hmem with hmem | hmem
  · exact h.unclosed p hmem
  · rw [List.mem_singleton.1 hmem, hfin]
    decide

theorem concludes_sendRequest (h : Open past stream) (command : UInt8) (payload : List UInt8) :
    (Channel.sendRequest stream command payload).Concludes Numbered Excused Open past := by
  rw [Channel.sendRequest]
  by_cases hroom : Channel.payloadLimit < payload.length
  · rw [if_pos hroom]
    exact concludes_throw (h.clean.excused _)
  · rw [if_neg hroom]
    have hlength : (UInt8.ofNat (5 + payload.length)).toNat =
        (0x00 :: command :: payload).length + 3 := by
      simp only [Channel.payloadLimit] at hroom
      simp only [List.length_cons, UInt8.toNat_ofNat']
      omega
    exact (concludes_sendPacket h hlength).bind fun _ _ hopen => concludes_pure hopen

theorem concludes_acknowledge (h : Open past stream) :
    (Channel.acknowledge stream 0).Concludes Numbered Excused Open past := by
  have hlength : (3 : UInt8).toNat = ([] : List UInt8).length + 3 := rfl
  exact (concludes_sendPacket h hlength).bind fun _ _ hopen => concludes_pure hopen

theorem concludes_converse (h : Open past stream) (command : UInt8) (payload : List UInt8)
    (timeout : Nat) :
    (Channel.converse stream command payload timeout).Concludes Numbered Excused
      (fun later result => Open later result.2) past :=
  (concludes_sendRequest h command payload).bind fun _ _ hopen =>
    concludes_receivePacket_open hopen timeout

theorem concludes_acknowledgeAndWait (h : Open past stream) :
    (Channel.acknowledgeAndWait stream).Concludes Numbered Excused
      (fun later result => Open later result.2) past :=
  (concludes_acknowledge h).bind fun _ _ hopen => concludes_receivePacket_open hopen promptWait

/-- What is demanded of a packet costs no traffic. -/
theorem concludes_demand (h : Open past stream) (packet : Packet) (command : UInt8)
    (doing : String) {post : List Step → List UInt8 → Prop} (hpost : ∀ body, post past body) :
    (packet.demand command doing).Concludes Numbered Excused post past := by
  rw [Packet.demand]
  by_cases hcommand : packet.command ≠ some command
  · rw [if_pos hcommand]
    exact concludes_throw (h.clean.excused _)
  · rw [if_neg hcommand]
    by_cases hstatus : packet.status ≠ statusOk
    · rw [if_pos hstatus]
      exact concludes_throw (h.clean.excused _)
    · rw [if_neg hstatus]
      exact concludes_pure (hpost _)

theorem concludes_carryOut (h : Open past stream) (command : UInt8) (payload : List UInt8)
    (doing : String) :
    (Channel.carryOut stream command payload doing).Concludes Numbered Excused Open past := by
  refine (concludes_converse h command payload promptWait).bind ?_
  rintro later ⟨packet, after⟩ hopen
  exact concludes_bind (concludes_demand hopen packet command doing fun _ => concludes_pure hopen)

theorem concludes_progress {ε : Type} {left : List Step → Halt ε → Prop} (h : Open past stream)
    (stage : Stage) (current total : Nat) :
    (progress stage current total : Exchange ε Unit).Concludes Numbered left
      (fun later _ => Open later stream) past := by
  refine concludes_notify ⟨h.toTracks.told _, ?_, ?_⟩
  · rw [Opened, taken_told]
    exact h.begins
  · rw [sent_told]
    exact h.unclosed

/-! ## Opening a stream -/

theorem concludes_ask :
    (hidLink.ask 0x40 hidLink.none promptWait "opening the update channel").Concludes Numbered
      Excused (fun later _ => Awaits later {}) [] := by
  have hrequest : (requestDatagram 0x40 hidLink.none promptWait).Concludes Numbered Excused
      (fun later _ => Awaits later {}) [] := by
    change (send (datagram 0x40 []) >>= _).Concludes _ _ _ _
    refine concludes_bind (concludes_send ⟨fun _ => rfl, fun hsome => absurd rfl hsome⟩ ?_
      fun cause => (clean_nil.wrote _ _).excused _)
    refine concludes_bind (concludes_receive (fun consent => ?_) fun cause => ?_)
    · have hawaits := awaits_opening (datagram 0x40 []) consent promptWait
      exact concludes_check (fun _ _ => hawaits) fun cause _ => hawaits.clean.excused _
    · exact ((clean_nil.wrote _ _).failedRead _ _).excused _
  refine hrequest.bind fun later response hawaits => ?_
  refine concludes_bind (?_ : (demand _ _ _ _).Concludes _ _ _ _)
  rw [demand]
  split
  · exact concludes_throw (hawaits.clean.excused _)
  · split
    · exact concludes_throw (hawaits.clean.excused _)
    · exact concludes_pure hawaits

theorem concludes_establish :
    Channel.establish.Concludes Numbered Excused Open [] := by
  refine concludes_ask.bind fun past _ hawaits => ?_
  refine concludes_bind ((concludes_receivePacket hawaits promptWait).weaken
    (fun _ _ hleft => hleft.1) ?_)
  rintro later ⟨packet, stream⟩ ⟨htracks, hsent, report, htaken, hflags⟩
  -- a fresh stream awaits its first packet
  have hfresh : taken past = [] :=
    Classical.byContradiction fun hbegun => nomatch hawaits.due hbegun
  have hnone : sent past = [] :=
    Classical.byContradiction fun hsome => nomatch hawaits.opened.2 hsome
  by_cases hsyn : packet.flags &&& synFlag = 0
  · simp only [if_pos hsyn]
    exact concludes_throw (htracks.clean.excused _)
  · simp only [if_neg hsyn]
    refine concludes_pure ⟨htracks, ⟨report, ?_, ?_⟩, ?_⟩
    · rw [htaken, hfresh]
      rfl
    · rw [flagged, ← hflags]
      exact bne_iff_ne.2 hsyn
    · rw [hsent, hnone]
      exact fun _ hmem => nomatch hmem

/-! ## The transfers -/

theorem concludes_receiveRegion (patience : Nat) (h : Open past stream) (carry : Option Carry)
    (received : Nat) (chunks : List (List UInt8)) :
    (receiveRegion patience stream carry received chunks).Concludes Numbered Excused
      (fun later result => Open later result.2) past := by
  induction patience generalizing past stream carry received chunks with
  | zero => exact concludes_throw (h.clean.excused _)
  | succ patience ih =>
    refine (concludes_converse h 0x48 [] promptWait).bind ?_
    rintro later ⟨packet, after⟩ hopen
    have hleft (halt : Halt RemoteError) : Excused later halt := hopen.clean.excused halt
    by_cases hdone : packet.command = some 0x49
    · simp only [if_pos hdone]
      split
      · exact concludes_throw (hleft _)
      · exact concludes_pure hopen
    · simp only [if_neg hdone]
      refine concludes_bind (concludes_demand hopen packet 0x48 _ fun chunk => ?_)
      split
      · exact concludes_pure hopen
      · split
        · exact concludes_throw (hleft _)
        · exact (concludes_progress hopen .fetchRegion _ 0).bind fun _ _ hopen => ih hopen _ _ _

theorem concludes_writeImage (total : Nat) (pieces : List (List UInt8)) (written : Nat)
    (h : Open past stream) :
    (writeImage total pieces written stream).Concludes Numbered Excused Open past := by
  induction pieces generalizing past stream written with
  | nil => exact concludes_pure h
  | cons piece rest ih =>
    refine (concludes_carryOut h 0x43 piece "writing update data").bind fun later after hopen => ?_
    exact (concludes_progress hopen .writeUpdate _ total).bind fun _ _ hopen => ih _ hopen

theorem concludes_confirmImage (h : Open past stream) (region : UInt8) (image : List UInt8) :
    (confirmImage stream region image).Concludes Numbered Excused Open past := by
  refine (concludes_converse h 0x45 [region] checksumWait).bind ?_
  rintro later ⟨packet, after⟩ hopen
  have hleft (halt : Halt RemoteError) : Excused later halt := hopen.clean.excused halt
  refine concludes_bind (concludes_demand hopen packet 0x45 _ fun body => ?_)
  split
  · exact concludes_throw (hleft _)
  · refine concludes_bind (?_ : (compareChecksum _ _).Concludes _ _ _ _)
    rw [compareChecksum]
    split
    · exact concludes_throw (hleft _)
    · exact concludes_pure (concludes_pure hopen)

theorem concludes_finishUpdate (h : Open past stream) (region : UInt8) :
    (finishUpdate stream region).Concludes Numbered Excused Open past := by
  refine (concludes_sendRequest h 0x46 [region]).bind fun _ _ hopen => ?_
  refine (concludes_receivePacket_open hopen promptWait).bind fun _ _ hopen => ?_
  refine (concludes_acknowledgeAndWait hopen).bind ?_
  rintro later ⟨packet, after⟩ hopen
  exact concludes_bind (concludes_demand hopen packet 0x46 "finishing update" fun _ =>
    concludes_pure hopen)

/-! ## Closing a stream -/

theorem concludes_acknowledge_fin (h : Open past stream) :
    (Channel.acknowledge stream finFlag).Concludes Numbered Excused Closing past := by
  have hlength : (3 : UInt8).toNat = ([] : List UInt8).length + 3 := rfl
  obtain ⟨-, -, hfin⟩ := flagged_header stream (.inr rfl) 3
    [(stream.header finFlag).1.seq, (stream.header finFlag).1.ack]
  have hnext := h.nextPacket h.begins hlength (.inr rfl) (fun _ => ⟨rfl, h.unclosed⟩)
    fun closing hmem hflag => absurd hflag (h.unclosed closing hmem)
  refine concludes_bind (concludes_sendNext h.toTracks hnext (concludes_pure
    ⟨h.wrote h.unclosed finFlag, h.begins.wrote _ _, ?_⟩))
  rw [sent_wrote h.requested]
  exact ⟨_, List.getLast?_concat, hfin.2 rfl⟩

theorem concludes_awaitClosing (reads : Nat) (h : Closing past stream) :
    (Channel.awaitClosing reads stream).Concludes Numbered Excused
      (fun later outcome =>
        match outcome with
        | none => Finished later
        | some stream => Closing later stream) past := by
  induction reads generalizing past stream with
  | zero => exact concludes_pure (h.clean.finished h.exists_closed)
  | succ reads ih =>
    refine concludes_bind (concludes_attempt
      ((concludes_receivePacket h.toAwaits promptWait).weaken ?_ ?_))
    · rintro later (cause | _ | _) ⟨hexcused, hsent⟩
      · -- a remote that falls silent is let go; any other failure is passed on
        by_cases htimedOut : cause.timedOut
        · simp only [if_pos htimedOut]
          refine concludes_pure ((hexcused.clean htimedOut).finished ?_)
          rw [hsent]
          exact h.exists_closed
        · simp only [if_neg htimedOut]
          exact concludes_throw hexcused
      · exact hexcused
      · exact hexcused
    · rintro later ⟨packet, after⟩ ⟨htracks, hsent, report, htaken, -⟩
      have hafter : Closing later after := by
        refine ⟨htracks, h.begins.of_taken htaken, ?_⟩
        rw [hsent]
        exact h.closed
      by_cases hfin : packet.flags &&& finFlag ≠ 0
      · simp only [if_pos hfin]
        exact concludes_pure hafter
      · simp only [if_neg hfin]
        exact ih hafter

/-- The last packet of the host tears the stream down. -/
theorem concludes_acknowledge_last (h : Closing past stream) :
    (Channel.acknowledge stream 0).Concludes Numbered Excused
      (fun later _ => Clean later ∧ TornDown later) past := by
  have hlength : (3 : UInt8).toNat = ([] : List UInt8).length + 3 := rfl
  have hnext := h.nextPacket h.begins hlength (.inl rfl) (fun hextra => absurd hextra (by decide))
    fun closing hmem hfin => ⟨h.last_of_flagged hmem hfin, rfl⟩
  exact concludes_bind (concludes_sendNext h.toTracks hnext (concludes_pure
    ⟨h.clean.wrote _ _, (tornDown_wrote h.requested _ _).2 h.exists_closed⟩))

theorem concludes_close (h : Open past stream) :
    (Channel.close stream).Concludes Numbered Excused (fun later _ => Finished later) past := by
  refine (concludes_acknowledge_fin h).bind fun past stream hclosing => ?_
  refine (concludes_awaitClosing _ hclosing).bind fun past outcome houtcome => ?_
  cases outcome with
  | none => exact concludes_pure houtcome
  | some stream =>
    refine (concludes_acknowledge_last houtcome).bind ?_
    rintro past - ⟨hclean, htorn⟩
    refine concludes_bind (concludes_attempt (concludes_receive (fun report => ?_) fun cause => ?_))
    · exact concludes_pure (hclean.finished_ignored htorn promptWait report)
    · have hclean := hclean.failedRead promptWait cause
      change (if cause.timedOut then pure () else fail (.link cause) :
        Exchange RemoteError Unit).Concludes _ _ _ _
      split
      · refine concludes_pure (hclean.finished ?_)
        rw [sent_read]
        exact htorn.exists_closed
      · exact concludes_throw (hclean.excused _)

/-! ## Whole transfers -/

theorem concludes_fetchRegion (patience : Nat) (region : Region) :
    (fetchRegion patience region).Concludes Numbered Excused (fun later _ => Finished later) [] := by
  refine concludes_establish.bind fun _ _ hopen => ?_
  refine (concludes_carryOut hopen 0x47 _ _).bind fun _ _ hopen => ?_
  refine (concludes_receiveRegion patience hopen _ 0 []).bind ?_
  rintro later ⟨chunks, after⟩ hopen
  exact (concludes_close hopen).bind fun _ _ hfinished => concludes_pure hfinished

theorem concludes_installHid (image : Image) :
    (installHid image).Concludes Numbered Excused (fun later _ => Finished later) [] := by
  rw [installHid]
  split
  · exact concludes_throw (clean_nil.excused _)
  · refine concludes_establish.bind fun _ _ hopen => ?_
    refine (concludes_carryOut hopen 0x41 _ _).bind fun _ _ hopen => ?_
    refine (concludes_carryOut hopen 0x42 _ _).bind fun _ _ hopen => ?_
    refine (concludes_progress hopen .initializeUpdate 1 1).bind fun _ _ hopen => ?_
    refine (concludes_writeImage _ _ 0 hopen).bind fun _ _ hopen => ?_
    refine (concludes_carryOut hopen 0x44 _ _).bind fun _ _ hopen => ?_
    refine (concludes_acknowledgeAndWait hopen).bind fun _ _ hopen => ?_
    refine (concludes_acknowledgeAndWait hopen).bind fun _ _ hopen => ?_
    refine (concludes_confirmImage hopen _ _).bind fun _ _ hopen => ?_
    refine (concludes_finishUpdate hopen _).bind fun _ _ hopen => ?_
    refine (concludes_progress hopen .finalizeUpdate 1 1).bind fun _ _ hopen => ?_
    exact concludes_close hopen

/-- Whatever the remote does, reading a region and installing an image keep the numbers of the
stream. -/
theorem transfers_conform (device : Device σ) (state : σ) :
    (∀ patience region, Conforms ((fetchRegion patience region).run.run device state)) ∧
      ∀ image, Conforms ((installHid image).run.run device state) :=
  ⟨fun patience region => conforms_of_concludes (concludes_fetchRegion patience region) device state,
    fun image => conforms_of_concludes (concludes_installHid image) device state⟩

end UniversalRemote.Z
