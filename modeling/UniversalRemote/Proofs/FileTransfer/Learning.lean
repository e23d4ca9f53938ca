import UniversalRemote.Proofs.FileTransfer.Release
import UniversalRemote.Proofs.Infrared.Gap
/-!
# The release behind a capture

A capture opens its file and acknowledges that. From then on it gives its token back whatever comes
of the capture. Before that it does not: where only the acknowledgement fails, the file stays open
(`learn_leaves_file_open`). `learn_releases` says which of the two happens, for every script.
-/

namespace UniversalRemote.FileTransfer

open Exchange

/-- The remote has answered the opening of the file of captures and the acknowledgement of that. -/
def Prepared (dialogue : List Turn) : Prop :=
  ∃ opening answer rest, dialogue =
    .say ([0xFF, 0x01, 0x00, 0x02, 0x80] ++ Utf8.encode "/ir/ir_cap" ++ [0x00, 0x80, 0x52, 0x00]) ::
    .hear opening :: .say [0xFF, 0x04, 0x01, 0x02, 0x01, 0x0C, 0x01, 0x00] :: .hear answer :: rest

/-- The token of captures was released by the last write, and by no write before it. -/
def ReleasedLast (dialogue : List Turn) : Prop :=
  ∃ before closing closed, dialogue = before ++ closing ∧
    (∀ report ∈ before.filterMap Turn.said?, ¬ IsRelease report) ∧
    Closing [0xFF, 0x07, 0x03, 0x01, 0x01, 0x0C] closing closed

/-- Nothing that was written releases a token. -/
def Silent (past : List Step) : Prop :=
  ∀ report ∈ past.filterMap Step.written?, ¬ IsRelease report

theorem prepared_iff {dialogue : List Turn} :
    Prepared dialogue ↔ ∃ opening answer rest, dialogue =
      .say (openToRead 0x00 0x02 captureName) :: .hear opening ::
      .say (readAck 0x01 captureToken 0x00) :: .hear answer :: rest := by
  rw [openToRead_eq]
  rfl

theorem Prepared.append {dialogue : List Turn} (h : Prepared dialogue) (later : List Turn) :
    Prepared (dialogue ++ later) := by
  obtain ⟨opening, answer, rest, rfl⟩ := h
  exact ⟨opening, answer, rest ++ later, rfl⟩

theorem Silent.step {past : List Step} (h : Silent past) {step : Step}
    (hstep : ∀ report, step.written? = some report → ¬ IsRelease report) :
    Silent (past ++ [step]) := by
  intro report hreport
  rw [List.filterMap_append, List.mem_append] at hreport
  rcases hreport with hreport | hreport
  · exact h report hreport
  · obtain ⟨other, hother, hwritten⟩ := List.mem_filterMap.1 hreport
    obtain rfl : other = step := List.mem_singleton.1 hother
    exact hstep report hwritten

theorem Silent.wrote {past : List Step} (h : Silent past) {report : Report}
    (hreport : ¬ IsRelease report) (outcome : Except LinkError Unit) :
    Silent (past ++ [.wrote report outcome]) := by
  refine h.step fun other hother => ?_
  obtain rfl := Option.some.inj hother
  exact hreport

theorem Silent.read {past : List Step} (h : Silent past) (timeout : Nat)
    (outcome : Except LinkError Report) : Silent (past ++ [.read timeout outcome]) :=
  h.step fun _ hnone => nomatch hnone

/-- From here on the token has to be released. -/
structure Held (past : List Step) : Prop where
  prepared : Prepared (turns past)
  silent : Silent past

section Held

variable {past : List Step}

theorem Held.wrote (h : Held past) {report : Report} (hreport : ¬ IsRelease report)
    (outcome : Except LinkError Unit) : Held (past ++ [.wrote report outcome]) :=
  ⟨by rw [turns_append]; exact h.prepared.append _, h.silent.wrote hreport outcome⟩

theorem Held.read (h : Held past) (timeout : Nat) (outcome : Except LinkError Report) :
    Held (past ++ [.read timeout outcome]) :=
  ⟨by rw [turns_append]; exact h.prepared.append _, h.silent.read timeout outcome⟩

theorem Held.later (h : Held past) {later : List Step} (hlater : past <+: later)
    (hwritten : later.filterMap Step.written? = past.filterMap Step.written?) : Held later := by
  obtain ⟨more, rfl⟩ := hlater
  refine ⟨by rw [turns_append]; exact h.prepared.append _, ?_⟩
  unfold Silent
  rw [hwritten]
  exact h.silent

theorem Held.releasedLast (h : Held past) {closing : List Step} {closed : Except LinkError Unit}
    (hclosing : Closing (releasePacket 0x03 captureToken) (turns closing) closed) :
    Prepared (turns (past ++ closing)) ∧ ReleasedLast (turns (past ++ closing)) := by
  rw [turns_append]
  refine ⟨h.prepared.append _, turns past, turns closing, closed, rfl, ?_, hclosing⟩
  rw [filterMap_said?_turns]
  exact h.silent

end Held

/-- What a call of `learn` leaves behind, by whether the remote has answered both requests. -/
structure Learned (later : List Step) (result : Except (Halt RemoteError) α) : Prop where
  released : Prepared (turns later) → ReleasedLast (turns later)
  left : ¬ Prepared (turns later) →
    Silent later ∧ ∃ cause, result = .error (.failed (.link cause))

theorem learned_of_released {later : List Step} {result : Except (Halt RemoteError) α}
    (h : Prepared (turns later) ∧ ReleasedLast (turns later)) : Learned later result :=
  ⟨fun _ => h.2, fun hnot => absurd h.1 hnot⟩

theorem learned_of_failure {later : List Step} (hnot : ¬ Prepared (turns later))
    (hsilent : Silent later) (cause : LinkError) :
    Learned later (.error (.failed (.link cause)) : Except (Halt RemoteError) α) :=
  ⟨fun h => absurd h hnot, fun _ => ⟨hsilent, cause, rfl⟩⟩

/-- A call is stalled behind too many reports, or it is as it should be. -/
abbrev Leaving (patience : Nat) (later : List Step) (halt : Halt RemoteError) : Prop :=
  (halt = .stalled ∧ patience ≤ receipts later) ∨
    Learned later (.error halt : Except (Halt RemoteError) Signal)

theorem concludes_first {allowed : List Step → Report → Prop} {past : List Step}
    {left : List Step → Halt ε → Prop} {post : List Step → α → Prop} (outcome : Except ε α)
    (closed : Except ε β) (hpost : ∀ a, post past a) (hleft : ∀ cause, left past (.failed cause)) :
    (first outcome closed).Concludes allowed left post past := by
  cases outcome with
  | error cause => exact concludes_throw (hleft cause)
  | ok a =>
    cases closed with
    | error cause => exact concludes_throw (hleft cause)
    | ok b => exact concludes_pure (hpost a)

section Learn

variable {past : List Step} {allowed : List Step → Report → Prop}

theorem concludes_capturing (h : Held past) (patience : Nat)
    {left : List Step → Halt RemoteError → Prop}
    (hleft : ∀ later, patience ≤ receipts later → left later .stalled) :
    (attempt (Signal.capture 0x90 patience) :
        Exchange RemoteError (Except RemoteError Signal)).Concludes (fun _ _ => True) left
      (fun later _ => Held later) past := by
  refine concludes_attempt ?_
  have hcapture := Signal.concludes_capture 0x90 patience past
  refine (Program.Ensures.silent hcapture).weaken fun later _ result hresult => ?_
  obtain ⟨hlater, hwritten, hresult⟩ := hresult
  have hheld : Held later := h.later hlater hwritten
  match result, hresult with
  | .ok _, _ => exact hheld
  | .error (.failed _), _ => exact hheld
  | .error .overflow, ⟨hoverflow, _⟩ => exact absurd rfl hoverflow
  | .error .stalled, ⟨_, hstalled⟩ =>
    refine hleft later ?_
    have := hstalled rfl
    omega

theorem concludes_stopping (h : Held past) {left : List Step → Halt RemoteError → Prop} :
    (attempt (converse [0xFF, 0x06, 0x02, 0x02, 0x01, captureToken, 0x01, 0x06] promptWait) :
        Exchange RemoteError (Except RemoteError Report)).Concludes (fun _ _ => True) left
      (fun later _ => Held later) past := by
  have hstop : ¬ IsRelease [0xFF, 0x06, 0x02, 0x02, 0x01, captureToken, 0x01, 0x06] :=
    fun hrelease => nomatch hrelease.2
  have hwrote := h.wrote hstop
  refine concludes_attempt (concludes_bind (concludes_send trivial ?_ fun _ => hwrote _))
  exact concludes_receive (fun _ => (hwrote _).read _ _) fun _ => (hwrote _).read _ _

theorem concludes_closing (h : Held past) {left : List Step → Halt RemoteError → Prop} :
    (attempt (release 0x03 captureToken) :
        Exchange RemoteError (Except RemoteError Unit)).Concludes (fun _ _ => True) left
      (fun later _ => Prepared (turns later) ∧ ReleasedLast (turns later)) past := by
  refine concludes_attempt (concludes_bind (concludes_bind (concludes_send trivial ?_ ?_)))
  · refine concludes_receive (fun answer => ?_) fun cause => ?_
    · refine concludes_pure ?_
      rw [List.append_assoc]
      exact h.releasedLast (.answered answer)
    · rw [List.append_assoc]
      exact h.releasedLast (.unanswered cause)
  · exact fun cause => h.releasedLast (.unsent cause)

/-- What a call does once the remote has answered both requests. -/
theorem concludes_learning (h : Held past) (patience : Nat) :
    (do
      let captured ← attempt (Signal.capture 0x90 patience)
      let stopped ← attempt
        (converse [0xFF, 0x06, 0x02, 0x02, 0x01, captureToken, 0x01, 0x06] promptWait)
      let closed ← attempt (release 0x03 captureToken)
      let signal ← first captured stopped
      first (.ok signal) closed : Exchange RemoteError Signal).Concludes (fun _ _ => True)
      (Leaving patience) (fun later signal => Learned later (.ok signal)) past := by
  refine (concludes_capturing h patience fun later hlater => .inl ⟨rfl, hlater⟩).bind
    fun later captured hcaptured => ?_
  refine (concludes_stopping hcaptured).bind fun later stopped hstopped => ?_
  refine (concludes_closing hstopped).bind fun later closed hclosed => ?_
  refine concludes_bind (concludes_first captured stopped (fun signal => ?_) fun cause => ?_)
  · refine concludes_first (.ok signal) closed (fun signal => ?_) fun cause => ?_
    · exact learned_of_released hclosed
    · exact .inr (learned_of_released hclosed)
  · exact .inr (learned_of_released hclosed)

theorem concludes_learn (patience : Nat) :
    (learn patience).Concludes (fun _ _ => True) (Leaving patience)
      (fun later signal => Learned later (.ok signal)) [] := by
  have hopen : ¬ IsRelease (openToRead 0x00 0x02 captureName) := fun h => nomatch h.2
  have hack : ¬ IsRelease (readAck 0x01 captureToken 0x00) := fun h => nomatch h.2
  have hnone : Silent [] := nofun
  have hsent := hnone.wrote hopen
  have hanswered := fun opening => (hsent (.ok ())).read promptWait (.ok opening)
  have hacked := fun opening => (hanswered opening).wrote hack
  -- the four turns before the capture, each of which can fail
  refine concludes_bind (concludes_bind (concludes_send trivial ?_ fun cause => ?_))
  · refine concludes_receive (fun opening => ?_) fun cause => ?_
    · refine concludes_bind (concludes_bind (concludes_send trivial ?_ fun cause => ?_))
      · refine concludes_receive (fun answer => ?_) fun cause => ?_
        · have hheld := (hacked opening (.ok ())).read promptWait (.ok answer)
          exact concludes_learning ⟨prepared_iff.2 ⟨opening, answer, [], rfl⟩, hheld⟩ patience
        · refine .inr (learned_of_failure (fun h => ?_) ((hacked opening _).read _ _) cause)
          obtain ⟨_, _, _, h⟩ := prepared_iff.1 h
          cases h
      · refine .inr (learned_of_failure (fun h => ?_) (hacked opening _) cause)
        obtain ⟨_, _, _, h⟩ := prepared_iff.1 h
        cases h
    · refine .inr (learned_of_failure (fun h => ?_) ((hsent _).read _ _) cause)
      obtain ⟨_, _, _, h⟩ := prepared_iff.1 h
      cases h
  · refine .inr (learned_of_failure (fun h => ?_) (hsent _) cause)
    obtain ⟨_, _, _, h⟩ := prepared_iff.1 h
    cases h

end Learn

/-- Once the remote has answered both requests, the token is released by the last write, whatever
happens in between. Otherwise the call ends with the failure of the link, and releases nothing. -/
theorem learn_releases (patience : Nat) (s : Script) (hpatience : s.reads.length < patience) :
    let run := (learn patience).run.run Script.device s
    (Prepared (turns run.trace) → ReleasedLast (turns run.trace)) ∧
      (¬ Prepared (turns run.trace) →
        (∀ report ∈ run.trace.filterMap Step.written?, ¬ IsRelease report) ∧
        ∃ cause, run.result = .error (.failed (.link cause))) := by
  intro run
  have hrun : Learned run.trace run.result := by
    have hconcludes := (Program.Ensures.run (concludes_learn patience) Script.device s).1
    have hreceipts : receipts run.trace ≤ s.reads.length :=
      Nat.le_trans (Nat.le_add_right _ _) (Script.receipts_run_le (learn patience).run s)
    rw [List.nil_append] at hconcludes
    cases hresult : run.result with
    | ok signal =>
      rw [show ((learn patience).run.run Script.device s).result = _ from hresult] at hconcludes
      exact hconcludes
    | error halt =>
      rw [show ((learn patience).run.run Script.device s).result = _ from hresult] at hconcludes
      rcases hconcludes with ⟨_, hlong⟩ | hlearned
      · have hlong : patience ≤ receipts run.trace := hlong
        omega
      · exact hlearned
  exact ⟨hrun.released, hrun.left⟩

theorem learn_releases_failed_capture :
    let s : Script := { reads := [.report [0xFF], .report [0xFF], .silence] }
    let run := (learn 10).run.run Script.device s
    s.reads.length < 10 ∧ Prepared (turns run.trace) ∧ ReleasedLast (turns run.trace) := by
  intro s run
  have hprepared : Prepared (turns run.trace) := prepared_iff.2 ⟨[0xFF], [0xFF], _, rfl⟩
  exact ⟨by decide, hprepared, (learn_releases 10 s (by decide)).1 hprepared⟩

/-- A file of captures can be left open: where the remote does not answer the acknowledgement, no
token is released. -/
theorem learn_leaves_file_open :
    let run := (learn 10).run.run Script.device
      { reads := [.report [0xFF, 0x00, 0x00, 0x01, 0x01]] }
    (∃ opening rest, turns run.trace =
      .say ([0xFF, 0x01, 0x00, 0x02, 0x80] ++ Utf8.encode "/ir/ir_cap" ++
        [0x00, 0x80, 0x52, 0x00]) :: .hear opening :: rest) ∧
      ∀ report ∈ run.trace.filterMap Step.written?, ¬ IsRelease report := by
  intro run
  have hwritten : run.trace.filterMap Step.written? =
      [openToRead 0x00 0x02 captureName, readAck 0x01 captureToken 0x00] := rfl
  rw [← openToRead_eq]
  refine ⟨⟨_, _, rfl⟩, fun report hreport hrelease => ?_⟩
  rw [hwritten] at hreport
  rcases List.mem_cons.1 hreport with rfl | hreport
  · exact nomatch hrelease.2
  · obtain rfl := List.mem_singleton.1 hreport
    exact nomatch hrelease.2

end UniversalRemote.FileTransfer
