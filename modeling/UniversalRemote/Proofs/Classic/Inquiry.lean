import UniversalRemote.Proofs.Classic.Discipline
import UniversalRemote.Proofs.Link.Outcome
/-!
# Asking changes nothing

Asking a classic remote for its identity, reading flash and holding it against what is expected write
no report that changes the stored configuration. An identity that is asked for is, in what matters
for flash, the one in the first answer.
-/

namespace UniversalRemote.Classic

open Exchange

variable {past later : List Step}

/-! ## Harmless reports -/

def Harmless (report : Report) : Prop :=
  ¬ Modifies report

theorem harmless_cons {code : UInt8} (hcode : code ≠ 0xA1)
    (hkind : ¬ (kind code = 0xD0 ∨ kind code = 0x30 ∨ kind code = 0x40)) (body : List UInt8) :
    Harmless (code :: body) := by
  rintro (hinvalidation | halters)
  · exact hcode (List.cons.inj hinvalidation).1
  · exact hkind halters

theorem programmed_of_quiet (h : Program.Quiet Harmless [] past) : programmed past = 0 := by
  obtain ⟨more, heq, hmore⟩ := h
  rw [List.nil_append] at heq
  rw [heq]
  clear heq
  induction more with
  | nil => rfl
  | cons step rest ih =>
    rw [programmed, ih fun report hreport => hmore report ?_, Nat.add_zero]
    · cases step with
      | wrote report outcome =>
        apply if_neg
        intro hprograms
        exact hmore report (by simp [Step.written?]) (.inr (.inr (.inl hprograms)))
      | read timeout outcome => rfl
      | told event => rfl
    · obtain ⟨other, hother, hwritten⟩ := List.mem_filterMap.1 hreport
      exact List.mem_filterMap.2 ⟨other, by simp [hother], hwritten⟩

/-! ## Reading -/

theorem writes_receivePacket {harmless : Report → Prop} (timeout : Nat) :
    (receivePacket timeout).Writes harmless := by
  apply writes_bind (writes_receive timeout)
  intro report
  cases report <;> trivial

theorem writes_readBytes (space address : UInt8) (count : Nat) :
    (readBytes space address count).Writes Harmless := by
  induction count generalizing address with
  | zero => trivial
  | succ count ih =>
    rw [readBytes]
    apply writes_bind (writes_send (harmless_cons (by decide) (by decide) _))
    intro _
    apply writes_bind (writes_receivePacket _)
    intro ⟨code, body⟩
    match body with
    | [] => exact writes_throw _
    | [_] => exact writes_throw _
    | answered :: value :: _ =>
      simp only []
      split
      · exact writes_throw _
      · exact writes_bind (ih _) fun _ => writes_pure _

section Absorb

variable {harmless : Report → Prop} {absorb : σ → Nat → List UInt8 → Exchange RemoteError σ}
  (habsorb : ∀ st place data, (absorb st place data).Writes harmless)
include habsorb

theorem writes_receiveChunk (f : Framing) (offset length patience : Nat) (sequence : Sequence)
    (received : Nat) (st : σ) :
    (receiveChunk f absorb offset length patience sequence received st).Writes harmless := by
  induction patience generalizing sequence received st with
  | zero => exact writes_throw _
  | succ patience ih =>
    rw [receiveChunk]
    apply writes_bind (writes_receivePacket _)
    intro ⟨code, body⟩
    simp only []
    split
    · split
      · exact writes_pure _
      · exact writes_throw _
    · split
      · exact writes_throw _
      · cases body with
        | nil => exact writes_throw _
        | cons number payload =>
          apply writes_bind (writes_check _)
          intro sequence
          split
          · exact writes_throw _
          · split
            · exact writes_throw _
            · exact writes_bind (habsorb _ _ _) fun st => ih sequence _ st

theorem writes_transferChunks (f : Framing) (stage : Stage) (patience : Nat) (address : UInt32)
    (length : Nat)
    (hread : ∀ offset start, offset ≤ length →
      checkedSum address (UInt32.ofNat offset) = some start →
      harmless (readCommand start (min (length - offset) f.readSize)))
    (count : Nat) {offset : Nat} (hoffset : offset ≤ length) (st : σ) :
    (transferChunks f absorb stage patience address length count offset st).Writes harmless := by
  induction count generalizing offset st with
  | zero => exact writes_pure _
  | succ count ih =>
    rw [transferChunks]
    cases hstart : checkedSum address (UInt32.ofNat offset) with
    | none => exact writes_throw _
    | some start =>
      show ((pure start : Exchange RemoteError UInt32) >>= _).Writes harmless
      rw [pure_bind]
      apply writes_bind (writes_send (hread offset start hoffset hstart))
      intro _
      apply writes_bind (writes_receiveChunk habsorb f _ _ _ _ _ _)
      intro st
      exact writes_bind (writes_notify _) fun _ => ih (by omega) st

theorem writes_transfer (f : Framing) (stage : Stage) (patience : Nat) (address : UInt32)
    (length : Nat)
    (hread : ∀ offset start, offset ≤ length →
      checkedSum address (UInt32.ofNat offset) = some start →
      harmless (readCommand start (min (length - offset) f.readSize))) (st : σ) :
    (transfer f absorb stage patience address length st).Writes harmless :=
  writes_transferChunks habsorb f stage patience address length hread _ (Nat.zero_le length) st

end Absorb

theorem harmless_readCommand (address : UInt32) (length : Nat) :
    Harmless (readCommand address length) :=
  harmless_cons (by decide) (by decide) _

theorem writes_framing (c : Classic) : c.framing.Writes Harmless := by
  rw [Classic.framing, Classic.known]
  cases c.geometry <;> trivial

theorem writes_read (c : Classic) (address : UInt32) (length : Nat) :
    (c.read address length).Writes Harmless := by
  apply writes_bind (writes_framing c)
  intro f
  apply writes_bind
  · exact writes_transfer (fun _ _ _ => writes_pure _) f _ _ _ _
      (fun _ _ _ _ => harmless_readCommand _ _) _
  · exact fun _ => writes_pure _

theorem writes_compare (address : UInt32) (expected : List UInt8) (place : Nat)
    (data : List UInt8) : (compare address expected place data).Writes Harmless := by
  rw [compare]
  cases firstDifference data expected with
  | none => exact writes_pure _
  | some i => exact writes_bind (writes_ofChecked _) fun _ => writes_throw _

theorem writes_verify (c : Classic) (address : UInt32) (expected : List UInt8) :
    (c.verify address expected).Writes Harmless := by
  apply writes_bind (writes_framing c)
  intro f
  apply writes_bind
  · exact writes_transfer (writes_compare address) f _ _ _ _
      (fun _ _ _ _ => harmless_readCommand _ _) _
  · exact fun _ => writes_pure _

/-! ## Identifying -/

theorem writes_announce : announce.Writes Harmless := by
  apply writes_bind (writes_send (harmless_cons (by decide) (by decide) _))
  intro _
  apply writes_bind (writes_receivePacket _)
  intro ⟨code, body⟩
  simp only []
  have hrest : (do
      if body.length < 7 then refuse (.shortPacket 8 (body.length + 1))
      pure (identityOf (lengthCode code) body)).Writes Harmless := by
    split
    · exact writes_bind (writes_throw _) fun _ => writes_pure _
    · exact writes_pure _
  split
  · exact writes_bind (writes_throw _) fun _ => hrest
  · exact hrest

theorem writes_describe (c : Classic) (identity : Identity) :
    (c.describe identity).Writes Harmless := by
  rw [describe]
  apply writes_bind (writes_check _)
  intro map
  apply writes_bind (writes_read c _ _)
  intro header
  simp only []
  split
  · exact writes_bind (writes_readBytes _ _ _) fun _ =>
      writes_bind (writes_notify _) fun _ => writes_pure _
  · exact writes_bind (writes_read c _ _) fun _ =>
      writes_bind (writes_notify _) fun _ => writes_pure _

theorem writes_identify (c : Classic) : c.identify.Writes Harmless := by
  rw [Classic.identify]
  apply Program.writes_bind writes_announce
  intro answer
  cases answer with
  | ok identity => exact Program.writes_bind (writes_describe _ identity) fun _ => trivial
  | error halt => trivial

/-! ## What is announced -/

/-- The identity in the first report that was received. -/
def announced (past : List Step) : Option Identity :=
  match past.findSome? Step.received? with
  | some (code :: body) => some (identityOf (lengthCode code) body)
  | _ => none

theorem announced_mono {identity : Identity} (h : announced past = some identity)
    (hlater : past <+: later) : announced later = some identity := by
  obtain ⟨more, rfl⟩ := hlater
  unfold announced at h ⊢
  rw [List.findSome?_append]
  cases hreceived : past.findSome? Step.received? with
  | none => simp [hreceived] at h
  | some report => simpa [hreceived] using h

section Allowed

variable {allowed : List Step → Report → Prop}
  (hallowed : ∀ later report, Harmless report → allowed later report)
include hallowed

theorem ensures_announce (hnone : past.findSome? Step.received? = none) :
    announce.Ensures allowed (fun later identity => announced later = some identity) past := by
  rw [announce]
  apply ensures_bind
  apply ensures_send (hallowed _ _ (harmless_cons (by decide) (by decide) _))
  apply ensures_bind
  apply ensures_receivePacket
  intro code body
  have hannounced : announced (past ++ [.wrote [0x10] (.ok ())] ++
      [.read promptWait (.ok (code :: body))]) = some (identityOf (lengthCode code) body) := by
    rw [announced, List.append_assoc, List.findSome?_append, hnone]
    rfl
  simp only []
  split
  · exact ensures_bind (ensures_throw _)
  · split
    · exact ensures_bind (ensures_throw _)
    · exact ensures_pure hannounced

theorem ensures_describe (c : Classic) (identity : Identity) :
    (c.describe identity).Ensures allowed
      (fun _ i => i.architectureCode = identity.architectureCode ∧ i.chip = identity.chip) past := by
  rw [describe]
  apply (writes_check identity.memoryMap).ensures_bind hallowed
  intro _ map
  apply (writes_read c _ _).ensures_bind hallowed
  intro _ header
  simp only []
  split
  · apply (writes_readBytes _ _ _).ensures_bind hallowed
    intro _ serial
    exact (writes_notify _).ensures_bind hallowed fun _ _ => ensures_pure ⟨rfl, rfl⟩
  · apply (writes_read c _ _).ensures_bind hallowed
    intro _ serial
    exact (writes_notify _).ensures_bind hallowed fun _ _ => ensures_pure ⟨rfl, rfl⟩

/-- An identity that is asked for is, in what matters for flash, the one that the first answer
announces. -/
theorem ensures_identify (c : Classic) (hnone : past.findSome? Step.received? = none) :
    c.identify.Ensures allowed (fun later result => Program.Quiet Harmless past later ∧
      ∀ identity, result.1 = .ok identity → ∃ i, announced later = some i ∧
        identity.architectureCode = i.architectureCode ∧ identity.chip = i.chip) past := by
  refine ((writes_identify c).ensures hallowed past).and ?_
  rw [Classic.identify]
  apply Program.ensures_bind
  apply Program.Ensures.weaken (ensures_announce hallowed hnone)
  intro middle _ answer hanswer
  cases answer with
  | error halt => exact fun _ hb => nomatch hb
  | ok announcedIdentity =>
    apply Program.ensures_bind
    apply Program.Ensures.weaken (ensures_describe hallowed _ announcedIdentity)
    intro later hlater result hresult identity hidentity
    exact ⟨announcedIdentity, announced_mono (hanswer _ rfl) hlater, hresult identity hidentity⟩

end Allowed

end UniversalRemote.Classic
