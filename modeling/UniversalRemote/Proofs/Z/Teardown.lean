import UniversalRemote.Proofs.Z.Closing
import UniversalRemote.Link.Script
import UniversalRemote.Z.Hid
/-!
# Tearing a stream down

A host closes its side of a stream, waits for the remote to close its own, and has the last word if
it does. `Teardown` says how that can go, and `TearsDown` what then holds. A transfer whose answer is
there before its stream is closed keeps it, also where the remote falls silent (`close_tearsDown`).
-/

namespace UniversalRemote.Z

open Exchange

/-! ## The whole teardown -/

/-- The packet that closes the host's side of an open stream. -/
def farewell (stream : Stream) : Report :=
  [3, ackFlag ||| finFlag, stream.ack, stream.consumed]

/-- The acknowledgement of the packet that closes the remote's side. -/
def lastPacket (closing : Report) : Report :=
  [3, ackFlag, closing.getD 3 0, nextNumber closing]

/-- How a teardown can go, and what comes of it: behind the host's closing packet and the wait for
that of the remote, there is nothing, or the last packet and one more read. -/
inductive Teardown (stream : Stream) : Except LinkError Unit → List (Except LinkError Report) →
    List Turn → Except (Halt RemoteError) Unit → Prop
  | unsent (cause : LinkError) :
      Teardown stream (.error cause) [] [] (.error (.failed (.link cause)))
  | failed {heard : List (Except LinkError Report)} {halt : Halt RemoteError}
      (h : Waits Channel.closingReads stream heard (.error halt)) :
      Teardown stream (.ok ()) heard [] (.error halt)
  | unclosed {heard : List (Except LinkError Report)}
      (h : Waits Channel.closingReads stream heard (.ok none)) :
      Teardown stream (.ok ()) heard [] (.ok ())
  | unacknowledged {heard : List (Except LinkError Report)} {after : Stream} {closing : Report}
      (h : Waits Channel.closingReads stream heard (.ok (some after)))
      (hcloses : Closes stream.due heard closing) (cause : LinkError) :
      Teardown stream (.ok ()) heard [.wrote (lastPacket closing) (.error cause)]
        (.error (.failed (.link cause)))
  | closed {heard : List (Except LinkError Report)} {after : Stream} {closing : Report}
      {answer : Except LinkError Report}
      (h : Waits Channel.closingReads stream heard (.ok (some after)))
      (hcloses : Closes stream.due heard closing) (hanswer : Tolerable (.read answer)) :
      Teardown stream (.ok ()) heard [.say (lastPacket closing), .read answer] (.ok ())
  | broken {heard : List (Except LinkError Report)} {after : Stream} {closing : Report}
      {cause : LinkError} (h : Waits Channel.closingReads stream heard (.ok (some after)))
      (hcloses : Closes stream.due heard closing) (hprompt : cause.timedOut = false) :
      Teardown stream (.ok ()) heard [.say (lastPacket closing), .read (.error cause)]
        (.error (.failed (.link cause)))

theorem takes_acknowledge {stream : Stream} {flags : UInt8} {dialogue : List Turn}
    {result : Except (Halt RemoteError) Stream}
    (h : (Channel.acknowledge stream flags).run.Takes dialogue result) :
    ∃ outcome, dialogue = [.wrote [3, (stream.header flags).1.flags, (stream.header flags).1.seq,
      (stream.header flags).1.ack] outcome] ∧
      result = (settle outcome).map fun _ => (stream.header flags).2 := by
  obtain ⟨outcome, rest, rfl, hrest⟩ := h
  refine ⟨outcome, ?_⟩
  cases outcome <;> obtain ⟨rfl, rfl⟩ := hrest <;> exact ⟨rfl, rfl⟩

theorem header_of_opened {stream : Stream} (hopen : stream.opened = true) (flags : UInt8) :
    stream.header flags = (⟨ackFlag ||| flags, stream.ack, stream.consumed⟩, stream) := by
  rw [Stream.header, if_pos hopen]
  cases stream
  cases hopen
  rfl

theorem exists_teardown_of_takes {stream : Stream} (hopen : stream.opened = true)
    {dialogue : List Turn} {result : Except (Halt RemoteError) Unit}
    (h : (Channel.close stream).run.Takes dialogue result) :
    ∃ written heard behind, dialogue = .wrote (farewell stream) written ::
      (heard.map Turn.read ++ behind) ∧ Teardown stream written heard behind result := by
  rw [Channel.close] at h
  rcases takes_bind.1 h with ⟨halt, hsent, rfl⟩ | ⟨stream', first, rest, rfl, hsent, hrest⟩
  · obtain ⟨cause | _, rfl, hresult⟩ := takes_acknowledge hsent
    · cases hresult
      rw [header_of_opened hopen]
      exact ⟨.error cause, [], [], rfl, .unsent cause⟩
    · cases hresult
  obtain ⟨_ | _, rfl, hresult⟩ := takes_acknowledge hsent
  · cases hresult
  cases hresult
  rw [header_of_opened hopen] at hrest ⊢
  rcases takes_bind.1 hrest with ⟨halt, hwait, rfl⟩ | ⟨outcome, first, rest, rfl, hwait, hrest⟩
  · obtain ⟨heard, rfl, hwaits⟩ := waits_of_takes hwait
    exact ⟨.ok (), heard, [], by rw [List.append_nil]; rfl, .failed hwaits⟩
  obtain ⟨heard, rfl, hwaits⟩ := waits_of_takes hwait
  cases outcome with
  | none =>
    obtain ⟨rfl, rfl⟩ := hrest
    exact ⟨.ok (), heard, [], rfl, .unclosed hwaits⟩
  | some after =>
    obtain ⟨closing, hcloses, hbehind⟩ := hwaits.exists_closing
    have hlast : after.header 0 = (⟨ackFlag, closing.getD 3 0, nextNumber closing⟩, after) := by
      rw [header_of_opened (hbehind.opened.trans hopen), hbehind.ack, hbehind.consumed]
      rfl
    rcases takes_bind.1 hrest with ⟨halt, hlastSent, rfl⟩ | ⟨_, first, rest, rfl, hlastSent, hanswer⟩
    · obtain ⟨cause | _, rfl, hresult⟩ := takes_acknowledge hlastSent
      · cases hresult
        rw [hlast]
        exact ⟨.ok (), heard, _, rfl, .unacknowledged hwaits hcloses cause⟩
      · cases hresult
    obtain ⟨_ | _, rfl, hresult⟩ := takes_acknowledge hlastSent
    · cases hresult
    cases hresult
    rw [hlast]
    obtain ⟨cause | report, rest, rfl, hparting⟩ := hanswer
    · change (if cause.timedOut then pure () else fail (.link cause) :
        Exchange RemoteError Unit).run.Takes rest result at hparting
      cases hlate : cause.timedOut with
      | true =>
        rw [hlate] at hparting
        obtain ⟨rfl, rfl⟩ := hparting
        exact ⟨.ok (), heard, _, rfl, .closed hwaits hcloses hlate⟩
      | false =>
        rw [hlate] at hparting
        obtain ⟨rfl, rfl⟩ := hparting
        exact ⟨.ok (), heard, _, rfl, .broken hwaits hcloses hlate⟩
    · obtain ⟨rfl, rfl⟩ := hparting
      exact ⟨.ok (), heard, _, rfl, .closed hwaits hcloses trivial⟩

/-- The turns of a teardown: the host's closing packet and what came of it, what is heard while the
remote has not closed its side, and what comes behind that. -/
def teardown (stream : Stream) (written : Except LinkError Unit)
    (heard : List (Except LinkError Report)) (behind : List Turn) : List Turn :=
  .wrote (farewell stream) written :: (heard.map Turn.read ++ behind)

structure TearsDown (stream : Stream) (written : Except LinkError Unit)
    (heard : List (Except LinkError Report)) (behind : List Turn)
    (result : Except (Halt RemoteError) Unit) : Prop where
  once : ((teardown stream written heard behind).filterMap Turn.said?).countP
    (flagged · finFlag) = 1
  heard_le : heard.length ≤ Channel.closingReads
  /-- There is a last packet just if the remote has closed its side. -/
  acknowledged_iff : behind ≠ [] ↔ ∃ closing, Closes stream.due heard closing
  last : behind ≠ [] → ∃ closing outcome, ∃ answers : List (Except LinkError Report),
    Closes stream.due heard closing ∧ answers.length ≤ 1 ∧
      behind = .wrote (lastPacket closing) outcome :: answers.map .read
  /-- A remote that does not close its side is not let go before it falls silent, or has had all the
  time there is. -/
  patient : result = .ok () → behind = [] → heard.length = Channel.closingReads ∨
    ∃ cause, cause.timedOut = true ∧ heard.getLast? = some (.error cause)
  ok_iff : result = .ok () ↔ (∀ turn ∈ teardown stream written heard behind, Tolerable turn) ∧
    InSequence stream.due (received heard)
  /-- Otherwise the last turn says what went wrong. -/
  error : ∀ halt, result = .error halt →
    (∃ report cause, halt = .failed (.link cause) ∧
      (teardown stream written heard behind).getLast? = some (.wrote report (.error cause))) ∨
    (∃ cause, halt = .failed (.link cause) ∧ cause.timedOut = false ∧
      (teardown stream written heard behind).getLast? = some (.read (.error cause))) ∨
    ∃ packets report cause, halt = .failed (.protocol cause) ∧ behind = [] ∧
      heard = packets.map .ok ++ [.ok report] ∧ Rejects (dueBehind stream.due packets) report cause

section TearsDown

variable {stream : Stream} {written : Except LinkError Unit}
  {heard : List (Except LinkError Report)} {behind : List Turn}
  {result : Except (Halt RemoteError) Unit}

theorem not_flagged_lastPacket (closing : Report) : ¬ flagged (lastPacket closing) finFlag := by
  change ¬ (ackFlag &&& finFlag != 0)
  decide

theorem countP_said_teardown : ((teardown stream written heard behind).filterMap Turn.said?).countP
    (flagged · finFlag) = (behind.filterMap Turn.said?).countP (flagged · finFlag) + 1 := by
  have hreads : (heard.map Turn.read).filterMap Turn.said? = [] := by simp
  have hfin : flagged (farewell stream) finFlag := by
    change (ackFlag ||| finFlag) &&& finFlag != 0
    decide
  rw [teardown, List.filterMap_cons_some (Turn.said?_wrote _ _), List.filterMap_append, hreads,
    List.nil_append]
  exact List.countP_cons_of_pos hfin

theorem forall_mem_teardown {p : Turn → Prop} :
    (∀ turn ∈ teardown stream written heard behind, p turn) ↔
      p (.wrote (farewell stream) written) ∧ (∀ outcome ∈ heard, p (.read outcome)) ∧
        ∀ turn ∈ behind, p turn := by
  simp only [teardown, List.forall_mem_cons, List.forall_mem_append, List.forall_mem_map]

theorem Teardown.acknowledged_iff (h : Teardown stream written heard behind result) :
    behind ≠ [] ↔ ∃ closing, Closes stream.due heard closing := by
  cases h with
  | unsent =>
    refine iff_of_false (fun hne => hne rfl) ?_
    rintro ⟨closing, packets, others, hnone, -⟩
    exact List.append_ne_nil_of_right_ne_nil _ (List.cons_ne_nil _ _) hnone.symm
  | failed hwaits | unclosed hwaits =>
    refine iff_of_false (fun hne => hne rfl) ?_
    rintro ⟨closing, hcloses⟩
    exact hwaits.not_closes nofun closing hcloses
  | unacknowledged _ hcloses | closed _ hcloses | broken _ hcloses =>
    exact iff_of_true (List.cons_ne_nil _ _) ⟨_, hcloses⟩

theorem Teardown.ok_iff (h : Teardown stream written heard behind result) :
    result = .ok () ↔ (∀ turn ∈ teardown stream written heard behind, Tolerable turn) ∧
      InSequence stream.due (received heard) := by
  rw [forall_mem_teardown]
  cases h with
  | unsent cause => exact iff_of_false nofun fun ⟨⟨hwritten, _⟩, _⟩ => nomatch hwritten
  | failed hwaits =>
    refine iff_of_false nofun fun ⟨⟨_, hheard, _⟩, hsequence⟩ => ?_
    obtain ⟨_, hok⟩ := hwaits.ok_iff.2 ⟨hheard, hsequence⟩
    cases hok
  | unclosed hwaits =>
    obtain ⟨hheard, hsequence⟩ := hwaits.ok_iff.1 ⟨_, rfl⟩
    exact iff_of_true rfl ⟨⟨rfl, hheard, nofun⟩, hsequence⟩
  | unacknowledged hwaits hcloses cause =>
    refine iff_of_false nofun fun ⟨⟨_, _, hbehind⟩, _⟩ => ?_
    exact nomatch hbehind _ List.mem_cons_self
  | closed hwaits _ hanswer =>
    obtain ⟨hheard, hsequence⟩ := hwaits.ok_iff.1 ⟨_, rfl⟩
    refine iff_of_true rfl ⟨⟨rfl, hheard, ?_⟩, hsequence⟩
    exact List.forall_mem_cons.2 ⟨rfl, List.forall_mem_singleton.2 hanswer⟩
  | broken _ _ hprompt =>
    refine iff_of_false nofun fun ⟨⟨_, _, hbehind⟩, _⟩ => Bool.eq_false_iff.1 hprompt ?_
    exact hbehind _ (List.mem_cons_of_mem _ List.mem_cons_self)

theorem getLast?_teardown (front : List Turn) {turn : Turn}
    (h : heard.map Turn.read ++ behind = front ++ [turn]) :
    (teardown stream written heard behind).getLast? = some turn := by
  rw [teardown, h, ← List.cons_append, List.getLast?_concat]

theorem Teardown.tearsDown (h : Teardown stream written heard behind result) :
    TearsDown stream written heard behind result where
  once := by
    rw [countP_said_teardown]
    cases h with
    | unsent | failed | unclosed => rfl
    | unacknowledged | closed | broken =>
      exact congrArg (· + 1) (List.countP_eq_zero.2
        (List.forall_mem_singleton.2 (not_flagged_lastPacket _)))
  heard_le := by
    cases h with
    | unsent => exact Nat.zero_le _
    | failed hwaits | unclosed hwaits | unacknowledged hwaits | closed hwaits | broken hwaits =>
      exact hwaits.length_le
  acknowledged_iff := h.acknowledged_iff
  last hbehind := by
    cases h with
    | unsent | failed | unclosed => exact absurd rfl hbehind
    | unacknowledged _ hcloses cause =>
      exact ⟨_, _, [], hcloses, Nat.zero_le 1, rfl⟩
    | closed _ hcloses | broken _ hcloses => exact ⟨_, _, [_], hcloses, Nat.le_refl 1, rfl⟩
  patient hresult hbehind := by
    cases h with
    | unsent | failed | broken => cases hresult
    | unclosed hwaits => exact hwaits.of_none
    | unacknowledged | closed => cases hbehind
  ok_iff := h.ok_iff
  error halt hresult := by
    cases h with
    | unsent cause =>
      cases hresult
      exact .inl ⟨_, cause, rfl, rfl⟩
    | failed hwaits =>
      cases hresult
      rcases hwaits.of_error with
        ⟨front, cause, rfl, hlate, rfl⟩ | ⟨packets, report, cause, rfl, rfl, hrejects⟩
      · refine .inr (.inl ⟨cause, rfl, hlate, getLast?_teardown (front.map .read) ?_⟩)
        rw [List.append_nil, List.map_append, List.map_singleton]
      · exact .inr (.inr ⟨packets, report, cause, rfl, rfl, rfl, hrejects⟩)
    | unclosed | closed => cases hresult
    | unacknowledged _ _ cause =>
      cases hresult
      exact .inl ⟨_, cause, rfl, getLast?_teardown _ rfl⟩
    | broken _ _ hprompt =>
      cases hresult
      exact .inr (.inl ⟨_, rfl, hprompt, getLast?_teardown _ (List.append_cons _ _ _)⟩)

end TearsDown

/-- A remote that falls silent is let go. -/
theorem TearsDown.eq_ok_of_silence {stream : Stream} {written : Except LinkError Unit}
    {heard : List (Except LinkError Report)} {behind : List Turn}
    {result : Except (Halt RemoteError) Unit} {cause : LinkError}
    (h : TearsDown stream written heard behind result)
    (hlast : (teardown stream written heard behind).getLast? = some (.read (.error cause)))
    (hlate : cause.timedOut = true) : result = .ok () := by
  cases result with
  | ok _ => rfl
  | error halt =>
    rcases h.error halt rfl with ⟨_, _, _, hother⟩ | ⟨other, _, hprompt, hother⟩ |
      ⟨packets, report, _, _, rfl, rfl, _⟩
    · rw [hlast] at hother
      cases hother
    · rw [hlast] at hother
      cases hother
      exact absurd hlate (Bool.eq_false_iff.1 hprompt)
    · have hreport : (teardown stream written (packets.map .ok ++ [.ok report]) []).getLast? =
          some (.hear report) :=
        getLast?_teardown ((packets.map Except.ok).map .read) (by simp)
      rw [hlast] at hreport
      cases hreport

theorem exists_tearsDown (device : Device σ) (state : σ) {stream : Stream}
    (hopen : stream.opened = true) :
    ∃ written heard behind,
      turns ((Channel.close stream).run.run device state).trace =
        teardown stream written heard behind ∧
      TearsDown stream written heard behind ((Channel.close stream).run.run device state).result := by
  obtain ⟨written, heard, behind, hturns, h⟩ :=
    exists_teardown_of_takes hopen (Program.takes_run (Channel.close stream).run device state)
  exact ⟨written, heard, behind, hturns, h.tearsDown⟩

/-! ## Transfers up to the teardown -/

/-- The contents of a region, and the stream that is still open behind them. -/
def receiveContents (patience : Nat) (region : Region) :
    Exchange RemoteError (List UInt8 × Stream) := do
  let stream ← Channel.establish
  let stream ← Channel.carryOut stream 0x47 [region.code] "starting region read"
  let carry := if region.isMarked then some [] else none
  let (chunks, stream) ← receiveRegion patience stream carry 0 []
  return (chunks.reverse.flatten, stream)

theorem fetchRegion_eq (patience : Nat) (region : Region) :
    fetchRegion patience region = (do
      let (contents, stream) ← receiveContents patience region
      Channel.close stream
      return contents) := by
  simp only [fetchRegion, receiveContents, bind_assoc, pure_bind]

/-- Installs an image up to the point where only the stream is left to close. -/
def deliverImage (image : Image) : Exchange RemoteError (Unit × Stream) := do
  if !image.region.isReplaceable then fail (.notOffered .zHid .installConfig)
  let region := image.region.code
  let length := image.data.length
  let stream ← Channel.establish
  let stream ← Channel.carryOut stream 0x41 [region] "starting update"
  let header := ByteOrder.little.bytes 4 length ++ [region]
  let stream ← Channel.carryOut stream 0x42 header "writing update header"
  progress .initializeUpdate 1 1
  let stream ← writeImage length (chunks Channel.payloadLimit image.data) 0 stream
  let stream ← Channel.carryOut stream 0x44 [region] "ending update data"
  let (_, stream) ← Channel.acknowledgeAndWait stream
  let (_, stream) ← Channel.acknowledgeAndWait stream
  let stream ← confirmImage stream region image.data
  let stream ← finishUpdate stream region
  progress .finalizeUpdate 1 1
  return ((), stream)

theorem installHid_eq (image : Image) :
    installHid image = (do
      let (done, stream) ← deliverImage image
      Channel.close stream
      return done) := by
  unfold installHid deliverImage
  split <;> simp only [bind_assoc, pure_bind, bind_pure_unit]

/-! ### The stream is open -/

section Opened

variable {stream : Stream}

theorem gives_sendRequest (stream : Stream) (command : UInt8) (payload : List UInt8) :
    (Channel.sendRequest stream command payload).Gives (·.opened = true) := by
  rw [Channel.sendRequest]
  by_cases hroom : Channel.payloadLimit < payload.length
  · rw [if_pos hroom]
    exact gives_throw _
  · rw [if_neg hroom]
    exact (gives_true _).bind fun _ _ => gives_pure rfl

theorem opened_of_absorb {report : Report} {after : Stream}
    (h : stream.absorb report = .ok after) : after.opened = stream.opened := by
  rcases absorb_cases stream report with ⟨-, -, other, hother, hopened, -⟩ | ⟨cause, herror, -⟩
  · cases hother.symm.trans h
    exact hopened
  · cases herror.symm.trans h

theorem gives_receivePacket (hopen : stream.opened = true) (timeout : Nat) :
    (Channel.receivePacket stream timeout).Gives (·.2.opened = true) := by
  refine (gives_true _).bind fun report _ => ?_
  have habsorb : (check (stream.absorb report)).Gives (·.opened = true) :=
    gives_check fun after h => (opened_of_absorb h).trans hopen
  exact habsorb.bind fun after hafter => (gives_true _).bind fun _ _ => gives_pure hafter

theorem gives_converse (stream : Stream) (command : UInt8) (payload : List UInt8)
    (timeout : Nat) : (Channel.converse stream command payload timeout).Gives (·.2.opened = true) :=
  (gives_sendRequest stream command payload).bind fun _ hopen => gives_receivePacket hopen timeout

theorem gives_acknowledgeAndWait (stream : Stream) :
    (Channel.acknowledgeAndWait stream).Gives (·.2.opened = true) := by
  have hsent : (Channel.acknowledge stream 0).Gives (·.opened = true) :=
    (gives_true _).bind fun _ _ => gives_pure rfl
  exact hsent.bind fun _ hopen => gives_receivePacket hopen promptWait

theorem gives_receiveRegion (patience : Nat) (stream : Stream) (carry : Option Carry)
    (received : Nat) (chunks : List (List UInt8)) :
    (receiveRegion patience stream carry received chunks).Gives (·.2.opened = true) := by
  induction patience generalizing stream carry received chunks with
  | zero => exact gives_throw _
  | succ patience ih =>
    refine (gives_converse stream 0x48 [] promptWait).bind ?_
    rintro ⟨packet, after⟩ hopen
    by_cases hdone : packet.command = some 0x49
    · simp only [if_pos hdone]
      split
      · exact gives_throw _
      · exact gives_pure hopen
    · simp only [if_neg hdone]
      refine (gives_true _).bind fun chunk _ => ?_
      split
      · exact gives_pure hopen
      · split
        · exact gives_throw _
        · exact (gives_true _).bind fun _ _ => ih _ _ _ _

theorem gives_finishUpdate (stream : Stream) (region : UInt8) :
    (finishUpdate stream region).Gives (·.opened = true) := by
  refine (gives_true _).bind fun _ _ => (gives_true _).bind fun _ _ => ?_
  refine (gives_acknowledgeAndWait _).bind ?_
  rintro ⟨packet, after⟩ hopen
  exact (gives_true _).bind fun _ _ => gives_pure hopen

theorem gives_receiveContents (patience : Nat) (region : Region) :
    (receiveContents patience region).Gives (·.2.opened = true) := by
  refine (gives_true _).bind fun _ _ => (gives_true _).bind fun _ _ => ?_
  refine (gives_receiveRegion patience _ _ 0 []).bind ?_
  rintro ⟨chunks, after⟩ hopen
  exact gives_pure hopen

theorem gives_deliverImage (image : Image) :
    (deliverImage image).Gives (·.2.opened = true) := by
  rw [deliverImage]
  split
  · exact gives_throw _
  · refine (gives_true _).bind fun _ _ => (gives_true _).bind fun _ _ => ?_
    refine (gives_true _).bind fun _ _ => (gives_true _).bind fun _ _ => ?_
    refine (gives_true _).bind fun _ _ => (gives_true _).bind fun _ _ => ?_
    refine (gives_true _).bind fun _ _ => (gives_true _).bind fun _ _ => ?_
    refine (gives_true _).bind fun _ _ => (gives_finishUpdate _ _).bind fun _ hopen => ?_
    exact (gives_true _).bind fun _ _ => gives_pure hopen

end Opened

/-! ### Answers are kept -/

/-- A transfer that has its answer closes an open stream, and then has this answer unless closing the
stream failed. A remote that falls silent meanwhile costs it nothing. -/
def KeepsAnswer (device : Device σ) (state : σ) (before : Exchange RemoteError (α × Stream))
    (whole : Exchange RemoteError α) : Prop :=
  ∀ answer stream, (before.run.run device state).result = .ok (answer, stream) →
    let transfer := before.run.run device state
    let closing := (Channel.close stream).run.run device transfer.state
    let run := whole.run.run device state
    stream.opened = true ∧ run.trace = transfer.trace ++ closing.trace ∧
      run.result = closing.result.map (fun _ => answer) ∧
      ∀ cause, (turns closing.trace).getLast? = some (.read (.error cause)) →
        cause.timedOut = true → run.result = .ok answer

theorem keepsAnswer {before : Exchange RemoteError (α × Stream)}
    (hopen : before.Gives (·.2.opened = true)) (device : Device σ) (state : σ) :
    KeepsAnswer device state before (do
      let (answer, stream) ← before
      Channel.close stream
      return answer) := by
  intro answer stream hresult transfer closing run
  have hopened : stream.opened = true :=
    hopen _ (answer, stream) (hresult ▸ Program.takes_run before.run device state)
  obtain ⟨hend, htrace⟩ :=
    run_bind_pure device transfer.state (Channel.close stream) fun _ => answer
  have hclose : run.trace = transfer.trace ++ closing.trace ∧
      run.result = closing.result.map fun _ => answer := by
    rw [← hend, ← htrace]
    have hrun := run_bind_ok hresult fun ((answer, stream) : α × Stream) => do
      Channel.close stream
      return answer
    have hruns : run.result = _ := congrArg Run.result hrun
    exact ⟨congrArg Run.trace hrun, hruns⟩
  refine ⟨hopened, hclose.1, hclose.2, fun cause hlast hlate => ?_⟩
  obtain ⟨written, heard, behind, hturns, h⟩ := exists_tearsDown device transfer.state hopened
  rw [hturns] at hlast
  rw [hclose.2, h.eq_ok_of_silence hlast hlate]
  rfl

/-- Whatever the remote does while an open stream is closed, the teardown is as `TearsDown` says, and
neither a region that was read before nor an update is lost where the remote falls silent. -/
theorem close_tearsDown (device : Device σ) (state : σ) :
    (∀ stream : Stream, stream.opened = true →
      let run := (Channel.close stream).run.run device state
      ∃ written heard behind, turns run.trace = teardown stream written heard behind ∧
        TearsDown stream written heard behind run.result) ∧
    (∀ patience region,
      KeepsAnswer device state (receiveContents patience region) (fetchRegion patience region)) ∧
    ∀ image, KeepsAnswer device state (deliverImage image) (installHid image) := by
  refine ⟨fun stream hopen => exists_tearsDown device state hopen, fun patience region => ?_,
    fun image => ?_⟩
  · rw [fetchRegion_eq]
    exact keepsAnswer (gives_receiveContents patience region) device state
  · rw [installHid_eq]
    exact keepsAnswer (gives_deliverImage image) device state

/-- A remote that sends data before it closes its side. -/
def slow : Script where
  reads := [.report [7, 0x80, 0x14, 0x21, 0x01, 0x48, 0x01, 0x00], .report [3, 0xA0, 0x18, 0x22]]

/-- A remote that sends two bytes of a region, and nothing once the stream is closed. -/
def silent : Script where
  reads := [.report [4, 0x01, 0x01, 0x40, 0x01], .report [3, 0x40, 0x10, 0x01],
    .report [6, 0x80, 0x11, 0x02, 0x01, 0x47, 0x01],
    .report [8, 0x80, 0x14, 0x03, 0x01, 0x48, 0x01, 0xAA, 0xBB],
    .report [6, 0x80, 0x19, 0x04, 0x01, 0x49, 0x00]]

theorem close_tearsDown_slow_and_silent :
    let stream : Stream := ⟨true, 0x10, 0x20, 4, 0x80, some 0x14⟩
    let run := (Channel.close stream).run.run Script.device slow
    (stream.opened = true ∧ run.result = .ok () ∧
      run.trace.filterMap Step.written? = [[3, 0xA0, 0x20, 0x14], [3, 0x80, 0x22, 0x19]] ∧
      ∃ written heard behind, turns run.trace = teardown stream written heard behind ∧
        TearsDown stream written heard behind run.result) ∧
    (∃ stream, ((receiveContents 2 .zWave).run.run Script.device silent).result =
      .ok ([0xAA, 0xBB], stream)) ∧
    ((fetchRegion 2 .zWave).run.run Script.device silent).result = .ok [0xAA, 0xBB] := by
  refine ⟨⟨rfl, rfl, by decide, (close_tearsDown Script.device slow).1 _ rfl⟩, ⟨_, rfl⟩, ?_⟩
  obtain ⟨-, -, -, hsilent⟩ := (close_tearsDown Script.device silent).2.1 2 .zWave _ _ rfl
  exact hsilent (.timeout promptWait) rfl rfl

end UniversalRemote.Z
