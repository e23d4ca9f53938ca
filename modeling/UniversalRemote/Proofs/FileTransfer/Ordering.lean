import UniversalRemote.FileTransfer.Basic
import UniversalRemote.Proofs.FileTransfer.Reception
import UniversalRemote.Proofs.Link.Outcome
/-!
# The numbers of written packets

Which number a written packet carries, and why the counter of a transfer always stands behind the
last one. A transfer that is in step with what was written stays in step, however it ends; it
releases no token and ends for no other reason than a failure.
-/

namespace UniversalRemote.FileTransfer

open Exchange

/-- A report ends the use of a token. -/
def IsRelease (report : Report) : Prop :=
  report.getD 0 0 = 0xFF ∧ report.getD 1 0 = 0x07

/-- The number that a packet carries: a control packet behind its operation, a data packet in front.
The end of the data carries none. -/
def numberOf? (report : Report) : Option UInt8 :=
  if report = [0x7E] then none
  else if report.getD 0 0 = 0xFF then report[2]?
  else report[0]?

/-- The last number that was written, or tried to be. -/
def lastNumber? (trace : List Step) : Option UInt8 :=
  ((trace.filterMap Step.written?).filterMap numberOf?).getLast?

/-- The counter stands behind the last number written. -/
def InStep (past : List Step) (n : Sequence) : Prop :=
  ∃ last, lastNumber? past = some last ∧ n = counter (last.toNat + 1)

abbrev Unreleasing (_ : List Step) (report : Report) : Prop :=
  ¬ IsRelease report

def Regular (result : Except (Halt ε) α) : Prop :=
  ∀ halt, result = .error halt → ∃ cause, halt = .failed cause

theorem counter_congr {a b : Nat} (h : a % 64 = b % 64) : counter a = counter b := by
  have hmod : (UInt8.ofNat a).toNat % 64 = (UInt8.ofNat b).toNat % 64 := by
    simp only [UInt8.toNat_ofNat', Nat.reducePow]
    omega
  unfold counter Sequence.sixBit
  simp only [hmod]

section Numbers

variable {past : List Step}

theorem lastNumber?_wrote {report : Report} {number : UInt8} (h : numberOf? report = some number)
    (outcome : Except LinkError Unit) :
    lastNumber? (past ++ [.wrote report outcome]) = some number := by
  have hlast : [Step.wrote report outcome].filterMap Step.written? = [report] := rfl
  rw [lastNumber?, List.filterMap_append, hlast, List.filterMap_append, List.filterMap_cons_some h,
    List.filterMap_nil, List.getLast?_concat]

theorem lastNumber?_unnumbered {step : Step}
    (h : ∀ report, step.written? = some report → numberOf? report = none) :
    lastNumber? (past ++ [step]) = lastNumber? past := by
  have hnone : ([step].filterMap Step.written?).filterMap numberOf? = [] := by
    cases hwritten : step.written? with
    | none => rw [List.filterMap_cons_none hwritten]; rfl
    | some report =>
      rw [List.filterMap_cons_some hwritten, List.filterMap_nil]
      exact List.filterMap_cons_none (h report hwritten)
  unfold lastNumber?
  rw [List.filterMap_append, List.filterMap_append, hnone, List.append_nil]

theorem InStep.unnumbered {n : Sequence} (h : InStep past n) {step : Step}
    (hstep : ∀ report, step.written? = some report → numberOf? report = none) :
    InStep (past ++ [step]) n := by
  obtain ⟨last, hlast, hn⟩ := h
  exact ⟨last, (lastNumber?_unnumbered hstep).trans hlast, hn⟩

end Numbers

/-- Packets carry the numbers that they are given, and release no token. -/
def Carries (packet : UInt8 → Report) : Prop :=
  ∀ count, numberOf? (packet (numberAt count)) = some (numberAt count) ∧
    ¬ IsRelease (packet (numberAt count))

theorem carries_control {operation : UInt8} (hoperation : operation ≠ 0x07) (rest : List UInt8) :
    Carries fun number => 0xFF :: operation :: number :: rest := by
  intro count
  refine ⟨?_, fun h => hoperation h.2⟩
  have hend : (0xFF :: operation :: numberAt count :: rest : Report) ≠ [0x7E] :=
    fun h => nomatch List.cons.inj h
  rw [numberOf?, if_neg hend]
  rfl

theorem carries_dataPacket (data : List UInt8) : Carries (dataPacket · data) := by
  intro count
  have hcontrol : numberAt count ≠ 0xFF := numberAt_ne count (by decide)
  refine ⟨?_, fun h => hcontrol h.1⟩
  rw [numberOf?, if_neg (dataPacket_ne_singleton _ _ _)]
  exact if_neg hcontrol

/-- Once a packet was written with the number that was taken for it, the counter is in step. -/
theorem inStep_wrote {packet : UInt8 → Report} (hpacket : Carries packet) {past : List Step}
    (count : Nat) (outcome : Except LinkError Unit) :
    InStep (past ++ [.wrote (packet (numberAt count)) outcome]) (counter (count + 1)) := by
  refine ⟨numberAt count, lastNumber?_wrote (hpacket count).1 outcome, counter_congr ?_⟩
  rw [toNat_numberAt]
  omega

/-! ## Exchanges -/

section Exchange

variable {P : List Step → Prop} {past : List Step}

/-- An exchange releases no token, ends where a condition holds, and has an answer or a failure. -/
def Keeps (P : List Step → Prop) (x : Exchange RemoteError α) (past : List Step) : Prop :=
  x.Concludes Unreleasing (fun later halt => P later ∧ ∃ cause, halt = .failed cause)
    (fun later _ => P later) past

theorem keeps_send {report : Report} (hreport : ¬ IsRelease report)
    (h : ∀ outcome, P (past ++ [.wrote report outcome])) : Keeps P (send report) past :=
  concludes_send hreport (h _) fun _ => ⟨h _, _, rfl⟩

theorem keeps_receive {timeout : Nat} (h : ∀ outcome, P (past ++ [.read timeout outcome])) :
    Keeps P (receive timeout) past :=
  concludes_receive (fun _ => h _) fun _ => ⟨h _, _, rfl⟩

theorem keeps_check {answer : Except ProtocolError α} (h : P past) : Keeps P (check answer) past :=
  concludes_check (fun _ _ => h) fun _ _ => ⟨h, _, rfl⟩

theorem keeps_progress {stage : Stage} {current total : Nat}
    (h : P (past ++ [.told (.progress stage current total)])) :
    Keeps P (progress stage current total) past :=
  concludes_notify h

theorem keeps_bind {x : Exchange RemoteError α} {f : α → Exchange RemoteError β}
    {Q : List Step → Prop} (h : Keeps Q x past) (hQ : ∀ later, Q later → P later)
    (hf : ∀ a later, Q later → Keeps P (f a) later) : Keeps P (x >>= f) past := by
  refine concludes_bind (h.weaken (fun later _ hleft => ?_) fun later a hlater => hf a later hlater)
  exact ⟨hQ later hleft.1, hleft.2⟩

theorem keeps_converse {report : Report} {timeout : Nat} (hreport : ¬ IsRelease report)
    (hwrote : ∀ outcome, P (past ++ [.wrote report outcome]))
    (hread : ∀ later outcome, P later → P (later ++ [.read timeout outcome])) :
    Keeps P (converse report timeout) past :=
  keeps_bind (keeps_send hreport hwrote) (fun _ hlater => hlater)
    fun _ later hlater => keeps_receive fun outcome => hread later outcome hlater

end Exchange

namespace Numbered

variable {past : List Step} {n : Sequence}

/-- Behind some steps a numbered exchange releases no token, ends in step with what was written, and
has an answer or a failure. -/
def Settles (x : Numbered α) (n : Sequence) (past : List Step) : Prop :=
  (x.run.run n).Ensures Unreleasing
    (fun later result => InStep later result.2 ∧ Regular result.1) past

/-- A numbered exchange that is in step stays in step. -/
def Orderly (x : Numbered α) : Prop :=
  ∀ past n, InStep past n → x.Settles n past

theorem orderly_pure (a : α) : (pure a : Numbered α).Orderly :=
  fun _ _ hstep => ⟨hstep, fun _ h => nomatch h⟩

theorem orderly_refuse (cause : ProtocolError) : (refuse cause : Numbered α).Orderly :=
  fun _ _ hstep => ⟨hstep, fun _ h => ⟨_, (Except.error.inj h).symm⟩⟩

theorem Settles.bind {x : Numbered α} {f : α → Numbered β} (h : x.Settles n past)
    (hf : ∀ a, (f a).Orderly) : (x >>= f).Settles n past := by
  apply Program.ensures_bind
  apply Program.Ensures.weaken h
  intro later _ result hresult
  obtain ⟨result, m⟩ := result
  cases result with
  | ok a => exact hf a later m hresult.1
  | error halt => exact ⟨hresult.1, fun _ h => hresult.2 _ (congrArg _ (Except.error.inj h))⟩

theorem Orderly.bind {x : Numbered α} {f : α → Numbered β} (h : x.Orderly)
    (hf : ∀ a, (f a).Orderly) : (x >>= f).Orderly :=
  fun past n hstep => (h past n hstep).bind hf

theorem settles_lift {x : Exchange RemoteError α} (h : Keeps (InStep · n) x past) :
    (liftM x : Numbered α).Settles n past := by
  apply Program.ensures_bind
  apply Program.Ensures.weaken h
  intro later _ result hresult
  cases result with
  | ok a => exact ⟨hresult, fun _ h => nomatch h⟩
  | error halt => exact ⟨hresult.1, fun _ h => Except.error.inj h ▸ hresult.2⟩

theorem orderly_receive (timeout : Nat) : (liftM (receive timeout) : Numbered Report).Orderly :=
  fun _ _ hstep => settles_lift (keeps_receive fun _ => hstep.unnumbered fun _ h => nomatch h)

theorem orderly_check (answer : Except ProtocolError α) :
    (liftM (check answer) : Numbered α).Orderly :=
  fun _ _ hstep => settles_lift (keeps_check hstep)

theorem orderly_progress (stage : Stage) (current total : Nat) :
    (progress stage current total).Orderly :=
  fun _ _ hstep => settles_lift (keeps_progress (hstep.unnumbered fun _ h => nomatch h))

theorem orderly_endOfData (timeout : Nat) :
    (liftM (converse endOfData timeout) : Numbered Report).Orderly := by
  intro past n hstep
  refine settles_lift (keeps_converse (fun h => nomatch h.1) (fun _ => ?_) fun _ _ h => ?_)
  · refine hstep.unnumbered fun report hreport => ?_
    obtain rfl := Option.some.inj hreport
    rfl
  · exact h.unnumbered fun _ h => nomatch h

theorem orderly_next_bind {f : UInt8 → Numbered α}
    (h : ∀ count past, (f (numberAt count)).Settles (counter (count + 1)) past) :
    (next >>= f).Orderly := by
  rintro past n ⟨last, -, rfl⟩
  have hnext := h (last.toNat + 1) past
  rw [← current_counter, ← advance_counter (last.toNat + 1)] at hnext
  exact hnext

theorem settles_send (packet : UInt8 → Report) (hpacket : Carries packet) (count : Nat) :
    (liftM (send (packet (numberAt count))) : Numbered Unit).Settles (counter (count + 1)) past :=
  settles_lift (keeps_send (hpacket count).2 (inStep_wrote hpacket count))

theorem settles_converse (packet : UInt8 → Report) (hpacket : Carries packet)
    (count timeout : Nat) :
    (liftM (converse (packet (numberAt count)) timeout) : Numbered Report).Settles
      (counter (count + 1)) past :=
  settles_lift (keeps_converse (hpacket count).2 (inStep_wrote hpacket count)
    fun _ _ h => h.unnumbered fun _ h => nomatch h)

end Numbered

/-! ## Transfers -/

open Numbered

theorem orderly_receiveData (token : UInt8) (length : Nat) (stage : Stage) (left : Nat) :
    ∀ (expected : Option Sequence) (unacked received : Nat) (past : List (List UInt8)),
      (receiveData token length stage left expected unacked received past).Orderly := by
  induction left with
  | zero =>
    intro expected unacked received past
    rw [receiveData]
    split
    · exact (orderly_refuse _).bind fun _ => orderly_pure _
    · exact orderly_pure _
  | succ left ih =>
    intro expected unacked received past
    rw [receiveData_succ]
    refine (orderly_receive _).bind fun packet => (orderly_check _).bind fun following =>
      (orderly_progress _ _ _).bind fun _ => ?_
    split
    · refine orderly_next_bind fun count past => ?_
      refine (settles_converse ((readAck · token (window (left + 1)))) ?_ count _).bind
        fun _ => ih _ _ _ _
      exact carries_control (by decide) _
    · exact ih _ _ _ _

theorem orderly_receiveFile (token : UInt8) (length : Nat) (stage : Stage) :
    (receiveFile token length stage).Orderly := by
  refine orderly_next_bind fun count past => ?_
  refine (settles_converse ((readAck · token (window (countedPackets length)))) ?_ count _).bind
    fun _ => (orderly_receiveData _ _ _ _ _ _ _ _).bind fun _ => orderly_pure _
  exact carries_control (by decide) _

theorem orderly_sendData (token : UInt8) (length : Nat) (stage : Stage)
    (pieces : List (List UInt8)) :
    ∀ unacked sent : Nat, (sendData token length stage pieces unacked sent).Orderly := by
  induction pieces with
  | nil => exact fun _ _ => orderly_pure _
  | cons chunk rest ih =>
    intro unacked sent
    refine orderly_next_bind fun count past => ?_
    refine (settles_send _ (carries_dataPacket chunk) count).bind fun _ => ?_
    dsimp only
    split
    · refine (orderly_receive _).bind fun _ => orderly_next_bind fun count past => ?_
      refine (settles_send ((writeAck · token (window (rest.length + 2)))) ?_ count).bind
        fun _ => (orderly_progress _ _ _).bind fun _ => ih _ _
      exact carries_control (by decide) _
    · exact (orderly_progress _ _ _).bind fun _ => ih _ _

def storing (token : UInt8) (data : List UInt8) : Numbered Unit := do
  let number ← Numbered.next
  send (writeAck number token (window (countedPackets data.length)))
  sendFile token data .storeFile
  let _ ← converse endOfData storeWait

theorem orderly_storing (token : UInt8) (data : List UInt8) : (storing token data).Orderly := by
  refine orderly_next_bind fun count past => ?_
  refine (settles_send ((writeAck · token (window (countedPackets data.length)))) ?_ count).bind
    fun _ => (orderly_sendData _ _ _ _ _ _).bind fun _ => (orderly_endOfData _).bind fun _ =>
      orderly_pure _
  exact carries_control (by decide) _

/-- An update begins with the number three, whatever was written before. -/
theorem settles_sendImage (token : UInt8) (data : List UInt8) (checksum : ChecksumRecord)
    (past : List Step) : (sendImage token data checksum).Settles (counter 4) past := by
  refine (settles_send ((writeAck · token 0x33)) (carries_control (by decide) _) 3).bind
    fun _ => (orderly_progress _ _ _).bind fun _ => (orderly_sendData _ _ _ _ _ _).bind
    fun _ => (orderly_endOfData _).bind fun _ => (orderly_progress _ _ _).bind fun _ => ?_
  refine orderly_next_bind fun count past => ?_
  refine (settles_converse ((finishPacket · token checksum)) (carries_control (by decide) _)
    count _).bind fun _ => (orderly_progress _ _ _).bind fun _ => ?_
  refine orderly_next_bind fun count past => ?_
  exact (settles_converse (fun number => [0xFF, 0x05, number, 0x02, 0x01, token, 0x01, 0x00])
    (carries_control (by decide) _) count _).bind fun _ => orderly_progress _ _ _

end UniversalRemote.FileTransfer
