import UniversalRemote.Classic.Basic
import UniversalRemote.Proofs.Link.Terms
/-!
# Classic exchanges within terms

No report to a classic remote is longer than 64 bytes: a block and its code fill one exactly. Nothing
is refused for the sake of an argument but what needs the geometry of a remote that has not told it,
before any traffic, and an architecture that nothing is known of.
-/

namespace UniversalRemote

open Exchange

variable {terms : Terms}

/-! ## Captures -/

theorem Capture.blameless_number (c : Capture) (actual : UInt8) : Blameless (c.number actual) := by
  unfold Capture.number
  dsimp only
  split
  · exact blameless_ok _
  split
  · exact blameless_ok _
  · exact blameless_error rfl

theorem Capture.within_takeIn (hoverflow : terms.ends .overflow) (c : Capture) (packet : Report) :
    (checkHalt (c.takeIn packet)).Within terms := by
  unfold Capture.takeIn
  split
  · exact within_refuse rfl
  split
  · rename_i cause hnumber
    exact within_refuse (c.blameless_number _ cause hnumber)
  split
  · exact within_refuse rfl
  split
  · exact within_pure _
  · exact within_throw hoverflow

theorem Signal.within_capture (hoverflow : terms.ends .overflow) (hstalled : terms.ends .stalled)
    (code : UInt8) (patience : Nat) : (Signal.capture code patience).Within terms := by
  suffices h : ∀ c, (Signal.listen code patience c).Within terms from h {}
  induction patience with
  | zero =>
    intro c
    unfold Signal.listen
    split
    · exact within_pure _
    · exact within_throw hstalled
  | succ patience ih =>
    intro c
    unfold Signal.listen
    split
    · exact within_pure _
    refine (within_receive _).bind fun packet => ?_
    dsimp only
    split
    · refine (Capture.within_takeIn hoverflow c packet).bind fun c => ?_
      exact (within_progress _ _ _).bind fun _ => ih c
    split
    · exact within_pure _
    · exact within_refuse rfl

namespace Classic

theorem within_receivePacket (timeout : Nat) : (receivePacket timeout).Within terms := by
  refine (within_receive timeout).bind fun report => ?_
  cases report with
  | nil => exact within_refuse rfl
  | cons code body => exact within_pure _

theorem within_unexpected (code : UInt8) (doing : String) :
    (unexpected code doing : Exchange RemoteError α).Within terms :=
  within_refuse rfl

theorem prompt_known_bind {c : Classic} {f : Geometry → Exchange RemoteError α}
    (hf : ∀ geometry, (f geometry).Prompt terms) : (c.known >>= f).Prompt terms := by
  unfold known
  cases c.geometry with
  | some geometry => exact hf geometry
  | none => exact prompt_refuse _

/-! ## State memory -/

section Sizes

variable (hwrites : ∀ report, report.length ≤ 64 → terms.writes report)
include hwrites

theorem within_readBytes (space : UInt8) (count : Nat) :
    ∀ address, (readBytes space address count).Within terms := by
  induction count with
  | zero => exact fun _ => within_pure _
  | succ count ih =>
    intro address
    refine (within_send (hwrites _ (by simp))).bind fun _ => ?_
    refine (within_receivePacket _).bind fun (code, body) => ?_
    dsimp only
    split
    · split
      · exact within_unexpected _ _
      · exact (ih _).bind fun _ => within_pure _
    · exact within_unexpected _ _

theorem within_readWords (space : UInt8) (count : Nat) :
    ∀ address, (readWords space address count).Within terms := by
  induction count with
  | zero => exact fun _ => within_pure _
  | succ count ih =>
    intro address
    refine (within_send (hwrites _ (by simp [ByteOrder.bytes16]))).bind fun _ => ?_
    refine (within_receivePacket _).bind fun packet => ?_
    obtain ⟨code, body⟩ := packet
    dsimp only
    split
    · split
      · exact within_unexpected _ _
      · exact (ih _).bind fun _ => within_pure _
    · exact within_unexpected _ _

theorem within_writeSpace (code space : UInt8) {body : List UInt8} (hbody : body.length ≤ 62) :
    (writeSpace code space body).Within terms := by
  have hlength : (code :: space :: body).length ≤ 64 := Nat.add_le_add_right hbody 2
  refine (within_send (hwrites _ hlength)).bind fun _ => ?_
  refine (within_receivePacket _).bind fun (answer, body) => ?_
  dsimp only
  split
  · split
    · exact within_unexpected _ _
    · exact within_pure _
  · exact within_unexpected _ _

theorem within_writeBytes (space : UInt8) (values : List UInt8) :
    ∀ address, (writeBytes space address values).Within terms := by
  induction values with
  | nil => exact fun _ => within_pure _
  | cons value rest ih =>
    exact fun _ => (within_writeSpace hwrites _ _ (by simp)).bind fun _ => ih _

theorem within_writeWords (space : UInt8) (values : List UInt16) :
    ∀ address, (writeWords space address values).Within terms := by
  induction values with
  | nil => exact fun _ => within_pure _
  | cons value rest ih =>
    exact fun _ => (within_writeSpace hwrites _ _ (by simp [ByteOrder.bytes16])).bind fun _ => ih _

theorem within_readClockOf (hoverflow : terms.ends .overflow) (architecture : UInt16) :
    (readClockOf architecture).Within terms := by
  unfold readClockOf
  split
  · exact (within_readBytes hwrites _ _ _).bind fun _ => within_pure _
  · exact (within_readWords hwrites _ _ _).bind fun _ => within_ofChecked fun _ => hoverflow

theorem within_setClockOf (architecture : UInt16) (t : DateTime) :
    (setClockOf architecture t).Within terms := by
  unfold setClockOf
  split
  · exact (within_writeBytes hwrites _ _ _).bind fun _ => within_progress _ _ _
  · refine (within_writeWords hwrites _ _ _).bind fun _ => ?_
    exact within_unless (within_writeSpace hwrites _ _ (Nat.zero_le _)) (within_progress _ _ _)

theorem within_invalidateConfig : invalidateConfig.Within terms :=
  within_writeSpace hwrites _ _ (Nat.zero_le _)

theorem prompt_readClock (hoverflow : terms.ends .overflow) (c : Classic) :
    c.readClock.Prompt terms :=
  prompt_known_bind fun _ => (within_readClockOf hwrites hoverflow _).prompt

theorem prompt_setClock (c : Classic) (t : DateTime) : (c.setClock t).Prompt terms :=
  prompt_known_bind fun _ => (within_setClockOf hwrites _ t).prompt

theorem within_restart (kind : Restart) : (restart kind).Within terms :=
  within_send (hwrites _ (by simp))

theorem within_learn (hoverflow : terms.ends .overflow) (hstalled : terms.ends .stalled)
    (c : Classic) : c.learn.Within terms := by
  refine (within_send (hwrites _ (by simp))).bind fun _ => ?_
  refine within_attempt_bind (Signal.within_capture hoverflow hstalled _ _) fun _ hcaptured => ?_
  exact within_attempt_bind (within_send (hwrites _ (by simp))) fun _ => within_first hcaptured

/-! ## Flash -/

section Flash

variable {framing : Framing} {absorb : σ → Nat → List UInt8 → Exchange RemoteError σ}

omit hwrites in
theorem within_receiveChunk (hstalled : terms.ends .stalled)
    (habsorb : ∀ state place data, (absorb state place data).Within terms) (offset length patience : Nat) :
    ∀ (sequence : Sequence) (received : Nat) (state : σ),
      (receiveChunk framing absorb offset length patience sequence received state).Within terms := by
  induction patience with
  | zero => exact fun _ _ _ => within_throw hstalled
  | succ patience ih =>
    intro sequence received state
    refine (within_receivePacket _).bind fun (code, body) => ?_
    dsimp only
    split
    · split
      · exact within_pure _
      · exact within_refuse rfl
    split
    · exact within_unexpected _ _
    split
    · exact within_refuse rfl
    · refine (within_check (sequence.blameless_accept _)).bind fun sequence => ?_
      split
      · exact within_refuse rfl
      split
      · exact within_refuse rfl
      · exact (habsorb _ _ _).bind fun state => ih _ _ _

theorem within_transferChunks (hoverflow : terms.ends .overflow) (hstalled : terms.ends .stalled)
    (habsorb : ∀ state place data, (absorb state place data).Within terms) {stage : Stage}
    {patience : Nat} {address : UInt32} {length : Nat} (count : Nat) :
    ∀ (offset : Nat) (state : σ),
      (transferChunks framing absorb stage patience address length count offset state).Within
        terms := by
  induction count with
  | zero => exact fun _ _ => within_pure _
  | succ count ih =>
    intro offset state
    refine (within_ofChecked fun _ => hoverflow).bind fun start => ?_
    refine (within_send (hwrites _ (by simp [readCommand, addressBytes]))).bind fun _ => ?_
    refine (within_receiveChunk hstalled habsorb _ _ _ _ _ _).bind fun state => ?_
    exact (within_progress _ _ _).bind fun _ => ih _ _

omit hwrites in
theorem within_compare (hoverflow : terms.ends .overflow)
    (hdiffers : ∀ cause, terms.ends (.failed (.mismatch cause))) (address : UInt32)
    (expected : List UInt8) (place : Nat) (data : List UInt8) :
    (compare address expected place data).Within terms := by
  unfold compare
  split
  · exact within_pure _
  · exact (within_ofChecked fun _ => hoverflow).bind fun _ => within_throw (hdiffers _)

theorem within_sendAll {reports : List Report} (h : ∀ report ∈ reports, report.length ≤ 64) :
    (sendAll reports).Within terms := by
  induction reports with
  | nil => exact within_pure _
  | cons report rest ih =>
    obtain ⟨hreport, hrest⟩ := List.forall_mem_cons.1 h
    exact (within_send (hwrites _ hreport)).bind fun _ => ih hrest

omit hwrites in
/-- A block fills a report with its code, or leaves room. -/
theorem length_of_mem_blockReports {blocks : List (UInt8 × Nat)}
    (hblocks : ∀ block ∈ blocks, block.2 ≤ 63) {data : List UInt8} {report : Report}
    (h : report ∈ blockReports blocks data) : report.length ≤ 64 := by
  fun_induction blockReports blocks data with
  | case1 data hnone => exact nomatch h
  | case2 data code size hsome ih =>
    rcases List.mem_cons.1 h with rfl | h
    · have hsize := hblocks _ (List.mem_of_find?_eq_some hsome)
      rw [List.length_cons, List.length_take]
      omega
    · exact ih h

omit hwrites in
theorem blocks_ofProtocol (version : UInt8) :
    ∀ block ∈ (Framing.ofProtocol version).blocks, block.2 ≤ 63 := by
  unfold Framing.ofProtocol
  split
  · decide
  · decide

theorem within_writeChunks (hoverflow : terms.ends .overflow)
    (hblocks : ∀ block ∈ framing.blocks, block.2 ≤ 63) {address : UInt32} {total : Nat}
    (pieces : List (List UInt8)) :
    ∀ offset, (writeChunks framing address total pieces offset).Within terms := by
  induction pieces with
  | nil => exact fun _ => within_pure _
  | cons piece rest ih =>
    intro offset
    refine (within_ofChecked fun _ => hoverflow).bind fun start => ?_
    refine (within_send (hwrites _ (by simp [writeCommand, addressBytes]))).bind fun _ => ?_
    refine (within_sendAll hwrites fun _ => length_of_mem_blockReports hblocks).bind fun _ => ?_
    refine (within_send (hwrites _ (by simp [writeDone]))).bind fun _ => ?_
    refine (within_receivePacket _).bind fun _ => ?_
    exact within_unless (within_unexpected _ _) ((within_progress _ _ _).bind fun _ => ih _)

theorem within_eraseFlash (hoverflow : terms.ends .overflow) (address length : UInt32)
    (layout : SectorLayout) : (eraseFlash address length layout).Within terms := by
  have hsectors : ∀ (total : Nat) (sectors : List Sector) (erased : Nat),
      (eraseSectors total sectors erased).Within terms := by
    intro total sectors
    induction sectors with
    | nil => exact fun _ => within_pure _
    | cons sector rest ih =>
      intro erased
      refine (within_send (hwrites _ (by simp [eraseCommand, addressBytes]))).bind fun _ => ?_
      exact (within_receivePacket _).bind fun _ => (within_progress _ _ _).bind fun _ => ih _
  exact (within_ofChecked fun _ => hoverflow).bind fun sectors => hsectors _ _ _

end Flash

/-! ## Operations -/

section Framed

variable {c : Classic}

omit hwrites in
theorem prompt_framing_bind {f : Framing → Exchange RemoteError α}
    (hf : ∀ version, (f (Framing.ofProtocol version)).Prompt terms) :
    (c.framing >>= f).Prompt terms := by
  unfold framing known
  cases c.geometry with
  | some geometry => exact hf _
  | none => exact prompt_refuse _

theorem prompt_read (hoverflow : terms.ends .overflow) (hstalled : terms.ends .stalled)
    (address : UInt32) (length : Nat) : (c.read address length).Prompt terms := by
  refine prompt_framing_bind fun version => Within.prompt ?_
  refine Within.bind ?_ fun _ => within_pure _
  exact within_transferChunks hwrites hoverflow hstalled (fun _ _ _ => within_pure _) _ _ _

theorem prompt_verify (hoverflow : terms.ends .overflow) (hstalled : terms.ends .stalled)
    (hdiffers : ∀ cause, terms.ends (.failed (.mismatch cause))) (address : UInt32)
    (expected : List UInt8) : (c.verify address expected).Prompt terms := by
  refine prompt_framing_bind fun version => Within.prompt ?_
  refine Within.bind ?_ fun _ => within_pure _
  exact within_transferChunks hwrites hoverflow hstalled
    (fun _ _ _ => within_compare hoverflow hdiffers _ _ _ _) _ _ _

theorem prompt_write (hoverflow : terms.ends .overflow) (address : UInt32) (data : List UInt8) :
    (c.write address data).Prompt terms :=
  prompt_framing_bind fun version =>
    (within_writeChunks hwrites hoverflow (blocks_ofProtocol version) _ _).prompt

theorem within_announce : announce.Within terms := by
  refine (within_send (hwrites _ (by simp))).bind fun _ => ?_
  refine (within_receivePacket _).bind fun (code, body) => ?_
  exact within_unless (within_unexpected _ _) (within_unless (within_refuse rfl) (within_pure _))

/-- Nothing may be known of an architecture, or of the geometry of a remote. -/
theorem within_describe (hoverflow : terms.ends .overflow) (hstalled : terms.ends .stalled)
    (hidle : ∀ halt : Halt RemoteError, halt.link? = none → terms.ends halt) (identity : Identity) :
    (c.describe identity).Within terms := by
  have hread : ∀ address length, (c.read address length).Within terms := fun address length =>
    (prompt_read hwrites hoverflow hstalled address length).within hidle
  refine Prompt.within (prompt_check_bind fun map _ => Within.prompt ?_) hidle
  refine (hread _ _).bind fun header => ?_
  dsimp only
  split
  · exact (within_readBytes hwrites _ _ _).bind fun _ => (within_progress _ _ _).bind fun _ =>
      within_pure _
  · exact (hread _ _).bind fun _ => (within_progress _ _ _).bind fun _ => within_pure _

end Framed

end Sizes

end Classic

end UniversalRemote
