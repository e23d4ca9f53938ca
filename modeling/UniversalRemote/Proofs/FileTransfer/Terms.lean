import UniversalRemote.Proofs.Classic.Terms
import UniversalRemote.Proofs.FileTransfer.Release
import UniversalRemote.Proofs.Text.Encoding
/-!
# File transfers within terms

No packet of a file transfer is longer than 64 bytes. The requests to open a file with the longest
name that is admitted fill them exactly, and so does a full data packet. A name that is too long and an
image that does not have its checksum are refused before any traffic.
-/

namespace UniversalRemote.FileTransfer

open Exchange

variable {terms : Terms}

/-! ## Lengths of requests -/

theorem length_openToRead (number parameters : UInt8) (name : String) :
    (openToRead number parameters name).length = name.utf8ByteSize + 9 := by
  simp only [openToRead, openRequest, List.length_append, List.length_cons, List.length_nil,
    Utf8.length_encode]
  omega

theorem length_openToWrite (number : UInt8) (name : String) (length : Nat) :
    (openToWrite number name length).length = name.utf8ByteSize + 14 := by
  simp only [openToWrite, openRequest, List.length_append, List.length_cons, List.length_nil,
    Utf8.length_encode, ByteOrder.length_bytes]
  omega

theorem length_finishPacket (number token : UInt8) (checksum : ChecksumRecord) :
    (finishPacket number token checksum).length = 29 := by
  simp only [finishPacket, ChecksumKind.bytes, ByteOrder.bytes16, ByteOrder.bytes32,
    List.length_append, List.length_cons, List.length_nil, ByteOrder.length_bytes]

/-! ## Exchanges that take no number -/

theorem within_converse {report : Report} (h : terms.writes report) (timeout : Nat) :
    (converse report timeout).Within terms :=
  (within_send h).bind fun _ => within_receive timeout

theorem within_release (hreleases : ∀ number token, terms.writes (releasePacket number token))
    (number token : UInt8) : (release number token).Within terms :=
  (within_converse (hreleases number token) _).bind fun _ => within_pure _

theorem blameless_opened (answer : Report) : Blameless (opened answer) := by
  unfold opened
  split
  · exact blameless_error rfl
  · exact blameless_ok _

theorem within_openFile {request : Report} (h : terms.writes request) (timeout : Nat) :
    (openFile request timeout).Within terms :=
  (within_converse h timeout).bind fun answer => within_check (blameless_opened answer)

theorem prompt_admitName_bind {name : String} {limit : Nat} {f : Unit → Exchange RemoteError α}
    (hf : name.utf8ByteSize ≤ limit → (f ()).Prompt terms) :
    (admitName name limit >>= f).Prompt terms := by
  unfold admitName
  split
  · exact prompt_refuse _
  · exact hf (Nat.le_of_not_lt ‹_›)

theorem within_greet (hhello : terms.writes hello) (times : Nat) : (greet times).Within terms := by
  induction times with
  | zero => exact within_pure _
  | succ times ih => exact (within_send hhello).bind fun _ => ih

/-! ## Under a token -/

namespace Numbered

/-- All reports and all ends of an exchange are within terms, whatever its numbers are. -/
def Within (terms : Terms) (x : Numbered α) : Prop :=
  ∀ n, (x.run.run n).Within terms fun answer => ∀ halt, answer.1 = .error halt → terms.ends halt

theorem within_pure (a : α) : (pure a : Numbered α).Within terms :=
  fun _ _ h => nomatch h

theorem within_refuse {cause : ProtocolError} (h : cause.ofArgument = false) :
    (refuse cause : Numbered α).Within terms := by
  intro n halt hhalt
  cases hhalt
  exact terms.ends_protocol cause h

theorem within_next : next.Within terms :=
  fun _ _ h => nomatch h

theorem within_lift {x : Exchange RemoteError α} (h : x.Within terms) :
    (liftM x : Numbered α).Within terms :=
  fun _ => Program.Within.bind h fun _ hresult => hresult

theorem Within.bind {x : Numbered α} {f : α → Numbered β} (h : x.Within terms)
    (hf : ∀ a, (f a).Within terms) : (x >>= f).Within terms := by
  intro n
  refine Program.Within.bind (h n) fun answer hanswer => ?_
  obtain ⟨result, rest⟩ := answer
  cases result with
  | ok a => exact hf a rest
  | error halt =>
    intro other hother
    cases hother
    exact hanswer halt rfl

theorem within_progress (stage : Stage) (current total : Nat) :
    (progress stage current total).Within terms :=
  within_lift (Exchange.within_progress _ _ _)

theorem within_converse {report : Report} (h : terms.writes report) (timeout : Nat) :
    (liftM (converse report timeout) : Numbered Report).Within terms :=
  within_lift (FileTransfer.within_converse h timeout)

/-- A token is released within terms, whatever came of what was done under it. -/
theorem within_holding (hreleases : ∀ number token, terms.writes (releasePacket number token))
    {body : Numbered α} (h : body.Within terms) (token : UInt8) (n : Sequence) :
    (holding token body n).Within terms := by
  have hrelease : ∀ (outcome : Except RemoteError α) (rest : Sequence), terms.Admits outcome →
      (do
        let closed ← Exchange.attempt (release rest.current token)
        Exchange.first outcome closed).Within terms := fun _ _ houtcome =>
    within_attempt_bind (within_release hreleases _ _) fun _ => within_first houtcome
  change ((body.run.run n).bind _ |>.bind _).Within terms _
  rw [Program.bind_assoc]
  refine Program.Within.bind (h n) fun answer hanswer => ?_
  match answer with
  | (.ok a, rest) => exact hrelease (.ok a) rest nofun
  | (.error (.failed cause), rest) =>
    exact hrelease (.error cause) rest (Terms.admits_error (hanswer _ rfl))
  | (.error .overflow, rest) => exact within_throw (hanswer _ rfl)
  | (.error .stalled, rest) => exact within_throw (hanswer _ rfl)

end Numbered

/-! ## Files that are received -/

theorem blameless_takeIn (expected : Option Sequence) (length received : Nat) (packet : Report) :
    Blameless (takeIn expected length received packet) := by
  have hnumber : ∀ number, Blameless (numberData expected number) := by
    intro number
    cases expected with
    | none => exact blameless_ok _
    | some expected => exact expected.blameless_accept number
  unfold takeIn
  split
  · split
    · rename_i cause hcause
      exact blameless_error (hnumber _ cause hcause)
    · dsimp only
      split
      · exact blameless_error rfl
      split
      · exact blameless_error rfl
      · exact blameless_ok _
  · exact blameless_error rfl

section Receiving

variable (hacks : ∀ number token packets, terms.writes (readAck number token packets))
include hacks

open Numbered (within_lift within_next) in
theorem within_receiveData (token : UInt8) (length : Nat) (stage : Stage) (left : Nat) :
    ∀ (expected : Option Sequence) (unacked received : Nat) (past : List (List UInt8)),
      (receiveData token length stage left expected unacked received past).Within terms := by
  induction left with
  | zero =>
    intro expected unacked received past
    rw [receiveData]
    split
    · exact (Numbered.within_refuse rfl).bind fun _ => Numbered.within_pure _
    · exact Numbered.within_pure _
  | succ left ih =>
    intro expected unacked received past
    rw [receiveData_succ]
    refine (within_lift (within_receive _)).bind fun packet => ?_
    refine (within_lift (within_check (blameless_takeIn _ _ _ packet))).bind fun following => ?_
    refine (Numbered.within_progress _ _ _).bind fun _ => ?_
    split
    · refine within_next.bind fun number => ?_
      exact (Numbered.within_converse (hacks _ _ _) _).bind fun _ => ih _ _ _ _
    · exact ih _ _ _ _

theorem within_receiveFile (token : UInt8) (length : Nat) (stage : Stage) :
    (receiveFile token length stage).Within terms :=
  Numbered.within_next.bind fun _ => (Numbered.within_converse (hacks _ _ _) _).bind fun _ =>
    (within_receiveData hacks _ _ _ _ _ _ _ _).bind fun _ => Numbered.within_pure _

variable (hreleases : ∀ number token, terms.writes (releasePacket number token))
include hreleases

/-- Behind the request that opens a file, only acknowledgements and the release are written. -/
theorem within_fetch {name : String} (hname : name.utf8ByteSize ≤ 55) {start : UInt8}
    (hopens : terms.writes (openToRead (Sequence.sixBit start).current 0x02 name)) (stage : Stage) :
    (fetch name start stage).Within terms := by
  unfold fetch admitName
  rw [if_neg (Nat.not_lt.2 hname)]
  refine (within_openFile hopens _).bind fun (token, length) => ?_
  exact Numbered.within_holding hreleases (within_receiveFile hacks token length stage) _ _

theorem prompt_fetchFile {name : String}
    (hopens : name.utf8ByteSize ≤ 55 → terms.writes (openToRead 0x00 0x02 name)) :
    (fetchFile name).Prompt terms := by
  by_cases hname : name.utf8ByteSize ≤ 55
  · have hopen : terms.writes (openToRead (Sequence.sixBit 0).current 0x02 name) := hopens hname
    have hfetch := within_fetch hacks hreleases hname hopen .fetchFile
    exact (hfetch.bind fun _ => within_pure _).prompt
  · unfold fetchFile fetch admitName
    rw [if_pos (Nat.lt_of_not_le hname)]
    exact prompt_refuse _

end Receiving

/-! ## Files that are sent -/

section Sending

variable (hwrites : ∀ report, report.length ≤ 64 → terms.writes report)
include hwrites

theorem writes_releasePacket (number token : UInt8) : terms.writes (releasePacket number token) :=
  hwrites _ (by simp [releasePacket])

theorem writes_readAck (number token packets : UInt8) :
    terms.writes (readAck number token packets) :=
  hwrites _ (by simp [readAck])

theorem writes_writeAck (number token packets : UInt8) :
    terms.writes (writeAck number token packets) :=
  hwrites _ (by simp [writeAck])

open Numbered (within_lift within_next) in
theorem within_sendData (token : UInt8) (length : Nat) (stage : Stage) {pieces : List (List UInt8)}
    (hpieces : ∀ piece ∈ pieces, piece.length ≤ dataSize) :
    ∀ unacked sent : Nat, (sendData token length stage pieces unacked sent).Within terms := by
  induction pieces with
  | nil => exact fun _ _ => Numbered.within_pure _
  | cons piece rest ih =>
    intro unacked sent
    obtain ⟨hpiece, hrest⟩ := List.forall_mem_cons.1 hpieces
    have hpacket : ∀ number, (dataPacket number piece).length ≤ 64 :=
      fun _ => Nat.add_le_add_right hpiece 2
    refine within_next.bind fun number => ?_
    refine (within_lift (within_send (hwrites _ (hpacket number)))).bind fun _ => ?_
    dsimp only
    split
    · refine (within_lift (within_receive _)).bind fun _ => within_next.bind fun number => ?_
      refine (within_lift (within_send (writes_writeAck hwrites _ _ _))).bind fun _ => ?_
      exact (Numbered.within_progress _ _ _).bind fun _ => ih hrest _ _
    · exact (Numbered.within_progress _ _ _).bind fun _ => ih hrest _ _

theorem within_sendFile (token : UInt8) (data : List UInt8) (stage : Stage) :
    (sendFile token data stage).Within terms :=
  within_sendData hwrites _ _ _ (fun _ => length_le_of_mem_chunks (by decide)) _ _

open Numbered (within_lift within_next) in
theorem within_storing (token : UInt8) (data : List UInt8) : (storing token data).Within terms :=
  within_next.bind fun _ =>
    (within_lift (within_send (writes_writeAck hwrites _ _ _))).bind fun _ =>
      (within_sendFile hwrites token data _).bind fun _ =>
        (Numbered.within_converse (hwrites _ (by simp [endOfData])) _).bind fun _ =>
          Numbered.within_pure _

open Numbered (within_lift within_next) in
theorem within_sendImage (token : UInt8) (data : List UInt8) (checksum : ChecksumRecord) :
    (sendImage token data checksum).Within terms := by
  have hfinish : ∀ number, terms.writes (finishPacket number token checksum) := by
    intro number
    refine hwrites _ ?_
    rw [length_finishPacket]
    decide
  refine (within_lift (within_send (writes_writeAck hwrites _ _ _))).bind fun _ => ?_
  refine (Numbered.within_progress _ _ _).bind fun _ => ?_
  refine (within_sendFile hwrites token data _).bind fun _ => ?_
  refine (Numbered.within_converse (hwrites _ (by simp [endOfData])) _).bind fun _ => ?_
  refine (Numbered.within_progress _ _ _).bind fun _ => within_next.bind fun number => ?_
  refine (Numbered.within_converse (hfinish number) _).bind fun _ => ?_
  refine (Numbered.within_progress _ _ _).bind fun _ => within_next.bind fun number => ?_
  exact (Numbered.within_converse (hwrites _ (by simp)) _).bind fun _ =>
    Numbered.within_progress _ _ _

theorem prompt_store (name : String) (data : List UInt8) : (store name data).Prompt terms := by
  rw [store_eq]
  refine Prompt.bind (prompt_admitName_bind fun hname => Within.prompt ?_) fun (token, _) => ?_
  · refine within_openFile (hwrites _ ?_) _
    rw [length_openToWrite]
    omega
  · refine Within.bind ?_ fun _ => within_pure _
    exact Numbered.within_holding (writes_releasePacket hwrites) (within_storing hwrites _ _) _ _

/-- An image without its checksum is refused before any traffic. -/
theorem prompt_install (image : Image) : (install image).Prompt terms := by
  rw [install_eq]
  refine Prompt.bind ?_ fun (token, _) => ?_
  · have hopens : terms.writes (openToWrite 0x01 configName image.data.length) := by
      refine hwrites _ ?_
      rw [length_openToWrite]
      decide
    unfold openingInstall openingUpdate
    refine prompt_unless rfl fun _ => Within.prompt ?_
    refine (within_progress _ _ _).bind fun _ => ?_
    refine (within_converse (hwrites _ (by simp)) _).bind fun _ => ?_
    refine (within_progress _ _ _).bind fun _ => (within_openFile hopens _).bind fun told => ?_
    exact (within_progress _ _ _).bind fun _ => within_pure told
  · refine Within.bind ?_ fun _ => within_progress _ _ _
    exact Numbered.within_holding (writes_releasePacket hwrites)
      (within_sendImage hwrites _ _ _) _ _

/-! ## Other calls -/

theorem within_configLength : configLength.Within terms := by
  have hopens : terms.writes (openToRead 0x00 0x03 configName) := by
    refine hwrites _ ?_
    rw [length_openToRead]
    decide
  refine within_attempt_bind (within_openFile hopens _) fun _ hanswer => ?_
  refine within_attempt_bind (within_release (writes_releasePacket hwrites) _ _) fun _ hclosed => ?_
  exact (within_first hanswer hclosed).bind fun _ => within_pure _

theorem within_identify (hoverflow : terms.ends .overflow) : identify.Within terms := by
  have hopens : terms.writes (openToRead (Sequence.sixBit 0x03).current 0x02 sysinfoName) := by
    refine hwrites _ ?_
    rw [length_openToRead]
    decide
  have hfetch : (fetch sysinfoName 0x03 .identify).Within terms :=
    within_fetch (writes_readAck hwrites) (writes_releasePacket hwrites) (by decide) hopens _
  refine (within_greet (hwrites _ (by simp [hello])) 5).bind fun _ => ?_
  refine (within_converse (hwrites _ (by simp)) _).bind fun _ => ?_
  refine (within_converse (hwrites _ (by simp)) _).bind fun _ => hfetch.bind fun contents => ?_
  refine (within_progress _ _ _).bind fun _ => (within_configLength hwrites).bind fun length => ?_
  refine (within_ofChecked fun _ => hoverflow).bind fun used => ?_
  exact (within_progress _ _ _).bind fun _ => within_pure _

theorem within_restart : restart.Within terms :=
  (within_converse (hwrites _ (by simp)) _).bind fun _ => within_pure _

theorem within_learn (hoverflow : terms.ends .overflow) (hstalled : terms.ends .stalled)
    (patience : Nat) : (learn patience).Within terms := by
  have hopens : terms.writes (openToRead 0x00 0x02 captureName) := by
    refine hwrites _ ?_
    rw [length_openToRead]
    decide
  refine (within_converse hopens _).bind fun _ => ?_
  refine (within_converse (writes_readAck hwrites _ _ _) _).bind fun _ => ?_
  refine within_attempt_bind (Signal.within_capture hoverflow hstalled _ _) fun _ hcaptured => ?_
  refine within_attempt_bind (within_converse (hwrites _ (by simp)) _) fun _ hstopped => ?_
  refine within_attempt_bind (within_release (writes_releasePacket hwrites) _ _) fun _ hclosed => ?_
  exact (within_first hcaptured hstopped).bind fun _ => within_first nofun hclosed

end Sending

end UniversalRemote.FileTransfer
