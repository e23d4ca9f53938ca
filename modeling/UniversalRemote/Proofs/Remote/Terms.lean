import UniversalRemote.Link.Mock
import UniversalRemote.Proofs.FileTransfer.Terms
import UniversalRemote.Proofs.Remote.Failures
import UniversalRemote.Proofs.Z.Terms
/-!
# What is refused, and what is written

Two things that hold of every operation, whatever the device does. It is refused for the sake of its
arguments before any traffic, or not at all: `Call.refused_without_traffic`. And no report that it
writes is longer than the reports of its family, so that a link with reports of that size takes them
all: `Call.reports_fit`. Both are read off the terms that operations keep to once there is traffic.
-/

namespace UniversalRemote

open Exchange

namespace Family

def reportSize : Family → Nat
  | zNet => 1600
  | classic | zHid | mh => 64

/-- Terms that leave room for the reports of a family, and for the data that it may find to differ once
there is traffic. Remotes that keep files do not check what they stored. -/
structure Grants (family : Family) (terms : Terms) : Prop where
  writes : ∀ report, report.length ≤ family.reportSize → terms.writes report
  overflow : terms.ends .overflow
  stalled : terms.ends .stalled
  mismatch : family ≠ .mh → ∀ cause, terms.ends (.failed (.mismatch cause))

end Family

namespace Call

variable {family : Family} {r : Remote} {terms : Terms}

/-- What an operation needs beside the terms of its family. A description may turn out to be of an
unknown architecture, and the name of a time zone may be of any length. -/
def Granted (terms : Terms) : Call family α → Prop
  | identify => ∀ halt : Halt RemoteError, halt.link? = none → terms.ends halt
  | setClock _ => family = .zNet → ∀ report, terms.writes report
  | _ => True

theorem prompt_notOffered (capability : Capability) :
    (r.notOffered capability : Exchange RemoteError α).Prompt terms :=
  prompt_throw rfl

section Families

variable (h : r.family.Grants terms)
include h

theorem writes_of_le (hfamily : r.family ≠ .zNet) :
    ∀ report, report.length ≤ 64 → terms.writes report := by
  intro report hreport
  apply h.writes
  cases hr : r.family with
  | zNet => exact absurd hr hfamily
  | classic | zHid | mh => exact hreport

theorem writes_message_of_le (hfamily : r.family = .zNet) :
    ∀ report, report.length ≤ 1030 → terms.writes report := by
  intro report hreport
  apply h.writes
  rw [hfamily]
  exact Nat.le_trans hreport (by decide)

theorem mismatch_of_ne {family : Family} (hfamily : r.family = family) (hmh : family ≠ .mh) :
    ∀ cause, terms.ends (.failed (.mismatch cause)) :=
  h.mismatch (hfamily ▸ hmh)

theorem within_describe (hidle : ∀ halt : Halt RemoteError, halt.link? = none → terms.ends halt) :
    r.describe.Within terms := by
  rw [Remote.describe_eq]
  split
  · have hwrites := writes_of_le h (by simp [*])
    exact (Classic.within_announce hwrites).bind fun identity =>
      Classic.within_describe hwrites h.overflow h.stalled hidle identity
  · exact Z.within_identify (Z.within_requestDatagram_none (writes_of_le h (by simp [*])))
  · exact Z.within_identify (Z.within_requestMessage_none (writes_message_of_le h ‹_›))
  · exact FileTransfer.within_identify (writes_of_le h (by simp [*])) h.overflow

theorem prompt_restart (kind : Restart) : (r.restart kind).Prompt terms := by
  unfold Remote.restart
  split
  · exact (Classic.within_restart (writes_of_le h (by simp [*])) kind).prompt
  · exact Z.prompt_restart (Z.within_requestDatagram_none (writes_of_le h (by simp [*]))) kind
  · exact Z.prompt_restart (Z.within_requestMessage_none (writes_message_of_le h ‹_›)) kind
  · exact (FileTransfer.within_restart (writes_of_le h (by simp [*]))).prompt

theorem prompt_readFlash (address : UInt32) (length : Nat) :
    (r.readFlash address length).Prompt terms := by
  unfold Remote.readFlash
  split
  · exact Classic.prompt_read (writes_of_le h (by simp [*])) h.overflow h.stalled _ _
  · exact prompt_notOffered _

theorem prompt_compareFlash (address : UInt32) (expected : List UInt8) :
    (r.compareFlash address expected).Prompt terms := by
  unfold Remote.compareFlash
  split
  · have hdiffers := mismatch_of_ne h ‹_› (by decide)
    exact Classic.prompt_verify (writes_of_le h (by simp [*])) h.overflow h.stalled hdiffers _ _
  · exact prompt_notOffered _

theorem prompt_writeFlash (address : UInt32) (data : List UInt8) :
    (r.writeFlash address data).Prompt terms := by
  unfold Remote.writeFlash
  split
  · exact Classic.prompt_write (writes_of_le h (by simp [*])) h.overflow _ _
  · exact prompt_notOffered _

theorem prompt_eraseFlash (address length : UInt32) (layout : SectorLayout) :
    (r.eraseFlash address length layout).Prompt terms := by
  unfold Remote.eraseFlash
  split
  · exact (Classic.within_eraseFlash (writes_of_le h (by simp [*])) h.overflow _ _ _).prompt
  · exact prompt_notOffered _

theorem prompt_invalidateConfig : r.invalidateConfig.Prompt terms := by
  unfold Remote.invalidateConfig
  split
  · exact (Classic.within_invalidateConfig (writes_of_le h (by simp [*]))).prompt
  · exact prompt_notOffered _

theorem prompt_readClock : r.readClock.Prompt terms := by
  unfold Remote.readClock
  split
  · exact Classic.prompt_readClock (writes_of_le h (by simp [*])) h.overflow _
  · have hnone := Z.within_requestDatagram_none (writes_of_le h (by simp [*]))
    exact (Z.within_readClock hnone).prompt
  · have hnone := Z.within_requestMessage_none (writes_message_of_le h ‹_›)
    exact (Z.within_readClock hnone).prompt
  · exact prompt_notOffered _

/-- The name of a time zone makes for messages of any length. -/
theorem prompt_setClock (hmessages : r.family = .zNet → ∀ report, terms.writes report)
    (t : DateTime) : (r.setClock t).Prompt terms := by
  unfold Remote.setClock
  split
  · exact Classic.prompt_setClock (writes_of_le h (by simp [*])) _ t
  · exact Z.prompt_setClock (Z.prompt_requestDatagram (writes_of_le h (by simp [*]))) t
  · have hnet := hmessages ‹_›
    exact Z.prompt_setClock (fun _ _ _ => (Z.within_requestMessage _ (hnet _) _).prompt) t
  · exact prompt_notOffered _

theorem prompt_learn : r.learn.Prompt terms := by
  unfold Remote.learn
  split
  · exact (Classic.within_learn (writes_of_le h (by simp [*])) h.overflow h.stalled _).prompt
  · exact (FileTransfer.within_learn (writes_of_le h (by simp [*])) h.overflow h.stalled _).prompt
  · exact prompt_notOffered _

theorem prompt_fetchFile (name : String) : (r.fetchFile name).Prompt terms := by
  unfold Remote.fetchFile
  split
  · have hwrites := writes_of_le h (by simp [*])
    refine FileTransfer.prompt_fetchFile (FileTransfer.writes_readAck hwrites)
      (FileTransfer.writes_releasePacket hwrites) fun hname => hwrites _ ?_
    rw [FileTransfer.length_openToRead]
    omega
  · exact prompt_notOffered _

theorem prompt_storeFile (name : String) (data : List UInt8) :
    (r.storeFile name data).Prompt terms := by
  unfold Remote.storeFile
  split
  · exact FileTransfer.prompt_store (writes_of_le h (by simp [*])) _ _
  · exact prompt_notOffered _

theorem prompt_fetchRegion (region : Region) : (r.fetchRegion region).Prompt terms := by
  unfold Remote.fetchRegion
  split
  · exact (Z.within_fetchRegion (writes_of_le h (by simp [*])) h.stalled _ _).prompt
  · exact (Z.within_fetchNetRegion (writes_message_of_le h ‹_›) _).prompt
  · exact prompt_notOffered _

theorem prompt_install (image : Image) : (r.install image).Prompt terms := by
  unfold Remote.install
  split
  · have hdiffers := mismatch_of_ne h ‹_› (by decide)
    exact Z.prompt_installHid (writes_of_le h (by simp [*])) hdiffers _
  · have hdiffers := mismatch_of_ne h ‹_› (by decide)
    exact Z.prompt_installNet (writes_message_of_le h ‹_›) hdiffers _
  · exact FileTransfer.prompt_install (writes_of_le h (by simp [*])) _
  · exact prompt_notOffered _

end Families

/-- Every operation keeps to the terms of its family once there is traffic. -/
theorem prompt_perform (hfamily : r.family = family) (h : family.Grants terms)
    (call : Call family α) (hcall : call.Granted terms) : (call.perform r).Prompt terms := by
  have hr : r.family.Grants terms := hfamily ▸ h
  cases call with
  | identify => exact (within_describe hr hcall).prompt
  | restart kind => exact prompt_restart hr kind
  | readFlash address length => exact prompt_readFlash hr address length
  | compareFlash address expected => exact prompt_compareFlash hr address expected
  | writeFlash address data => exact prompt_writeFlash hr address data
  | eraseFlash address length layout => exact prompt_eraseFlash hr address length layout
  | invalidateConfig => exact prompt_invalidateConfig hr
  | readClock => exact prompt_readClock hr
  | setClock t => exact prompt_setClock hr (hfamily ▸ hcall) t
  | learn => exact prompt_learn hr
  | fetchFile name => exact prompt_fetchFile hr name
  | storeFile name data => exact prompt_storeFile hr name data
  | fetchRegion region => exact prompt_fetchRegion hr region
  | install image => exact prompt_install hr image
  | readBytes space address count => exact (Classic.within_readBytes h.writes _ _ _).prompt
  | readWords space address count => exact (Classic.within_readWords h.writes _ _ _).prompt
  | writeBytes space address values => exact (Classic.within_writeBytes h.writes _ _ _).prompt
  | writeWords space address values => exact (Classic.within_writeWords h.writes _ _ _).prompt

/-! ## What is refused -/

end Call

/-- Whether a failure is a refusal: the call or an argument is not admitted, or the family does not
offer the operation. Remotes that keep files take no image without its checksum. -/
def RemoteError.isRefusal (family : Family) : RemoteError → Bool
  | protocol cause => cause.ofArgument
  | notOffered _ _ => true
  | mismatch (.checksum _ _) => family == .mh
  | _ => false

/-- With traffic, no operation of a family may end with a refusal. -/
def Terms.unrefused (family : Family) : Terms where
  writes _ := True
  ends halt := ∀ cause, halt = .failed cause → cause.isRefusal family = false
  ends_protocol cause hcause := by
    rintro other ⟨⟩
    exact hcause

namespace Call

variable {family : Family} {r : Remote}

theorem grants_unrefused (family : Family) : family.Grants (.unrefused family) where
  writes _ _ := trivial
  overflow := nofun
  stalled := nofun
  mismatch hmh cause := by
    rintro other ⟨⟩
    cases cause with
    | byte address => rfl
    | checksum expected actual => exact beq_eq_false_iff_ne.2 hmh

def Identifies : Call family α → Prop
  | identify => True
  | _ => False

/-- An operation that is refused, for whatever reason, has written and read nothing. -/
theorem refused_without_traffic (hfamily : r.family = family) (call : Call family α)
    (hidentifies : ¬ call.Identifies) (device : Device σ) (state : σ) {cause : RemoteError}
    (hresult : ((call.perform r).run.run device state).result = .error (.failed cause))
    (hrefusal : cause.isRefusal family = true) :
    transfers ((call.perform r).run.run device state).trace = [] := by
  have hgranted : call.Granted (.unrefused family) := by
    cases call with
    | identify => exact (hidentifies trivial).elim
    | setClock t => exact fun _ _ => trivial
    | _ => trivial
  have hmeets : ∀ failure, (Terms.unrefused family).Meets failure := by
    rintro failure other ⟨⟩
    rfl
  have hprompt := prompt_perform hfamily (grants_unrefused family) call hgranted
  have hhonours := device.honours_of_forall hmeets
  rcases (hprompt.run hhonours trivial).2 _ hresult with hends | ⟨-, htraffic⟩
  · have hends := hends cause rfl
    rw [hrefusal] at hends
    cases hends
  · exact htraffic

/-- The name of a time zone that is one byte too long for a datagram. -/
theorem refused_without_traffic_long_zone :
    let r : Remote := ⟨.zHid, 4, none⟩
    let t : DateTime := ⟨2010, 1, 2, 3, 4, 5, 6, 0, String.ofList (List.replicate 40 'x')⟩
    let call : Call .zHid Unit := .setClock t
    let run := (call.perform r).run.run Script.device {}
    let cause : RemoteError :=
      .protocol (.invalidArgument "datagram payload of 61 bytes exceeds 60")
    r.family = .zHid ∧ ¬ call.Identifies ∧ run.result = .error (.failed cause) ∧
      cause.isRefusal .zHid = true ∧ transfers run.trace = [] := by
  intro r t call run cause
  have hresult : run.result = .error (.failed cause) := by decide +kernel
  exact ⟨rfl, id, hresult, rfl,
    refused_without_traffic (r := r) rfl call id Script.device {} hresult rfl⟩

end Call

/-! ## What is written -/

/-- Reports are no longer than a size, and of the failures of the link only some are met. -/
def Terms.sized (size : Nat) (met : LinkError → Prop) : Terms where
  writes report := report.length ≤ size
  ends halt := ∀ cause, halt.link? = some cause → met cause
  ends_protocol _ _ := nofun

theorem Terms.meets_sized {size : Nat} {met : LinkError → Prop} {cause : LinkError}
    (h : met cause) : (sized size met).Meets cause := by
  rintro other ⟨⟩
  exact h

def LinkError.isOversize : LinkError → Bool
  | reportTooLarge _ _ => true
  | _ => false

/-- A mock takes all reports of its size. -/
theorem Mock.honours_sized (size : Nat) :
    device.Honours (.sized size (·.isOversize = false)) (·.size = size) where
  write report m hsize hreport := by
    show (write report m).2.size = size ∧ ∀ cause, (write report m).1 = .error cause → _
    unfold write
    split
    · refine ⟨hsize, ?_⟩
      rintro _ ⟨⟩
      exact Terms.meets_sized rfl
    split
    · rename_i hlarge
      rw [hsize] at hlarge
      exact absurd hreport (Nat.not_le.2 hlarge)
    · exact ⟨hsize, nofun⟩
  read timeout m hsize := by
    show (read timeout m).2.size = size ∧ ∀ cause, (read timeout m).1 = .error cause → _
    unfold read
    split
    · refine ⟨hsize, ?_⟩
      rintro _ ⟨⟩
      exact Terms.meets_sized rfl
    split
    · exact ⟨hsize, nofun⟩
    · refine ⟨hsize, ?_⟩
      rintro _ ⟨⟩
      exact Terms.meets_sized rfl
    · refine ⟨hsize, ?_⟩
      rintro _ ⟨⟩
      exact Terms.meets_sized rfl

namespace Call

variable {family : Family} {r : Remote}

/-- Arguments that are no longer than reports allow. Over the network the name of a time zone may
be. -/
def Brief : Call family α → Prop
  | setClock _ => family ≠ .zNet
  | _ => True

theorem prompt_sized (hfamily : r.family = family) (call : Call family α) (hbrief : call.Brief)
    (met : LinkError → Prop) : (call.perform r).Prompt (.sized family.reportSize met) := by
  have hgrants : family.Grants (.sized family.reportSize met) :=
    ⟨fun _ hreport => hreport, nofun, nofun, fun _ _ => nofun⟩
  refine prompt_perform hfamily hgrants call ?_
  cases call with
  | identify =>
    intro halt hlink cause hcause
    rw [hlink] at hcause
    cases hcause
  | setClock t => exact fun hnet => absurd hnet hbrief
  | _ => trivial

/-- Every report that an operation writes fits the reports of its family. -/
theorem reports_fit (hfamily : r.family = family) (call : Call family α) (hbrief : call.Brief) :
    (∀ {σ : Type} (device : Device σ) (state : σ),
      ∀ report ∈ ((call.perform r).run.run device state).trace.filterMap Step.written?,
        report.length ≤ family.reportSize) ∧
    ∀ m : Mock, m.size = family.reportSize → ∀ length limit,
      ((call.perform r).run.run Mock.device m).result ≠
        .error (.failed (.link (.reportTooLarge length limit))) := by
  constructor
  · intro σ device state
    have hhonours : device.Honours (.sized family.reportSize fun _ => True) fun _ => True :=
      device.honours_of_forall fun _ => Terms.meets_sized trivial
    exact ((prompt_sized hfamily call hbrief _).run hhonours trivial).1
  · intro m hsize length limit hresult
    have hrun := (prompt_sized hfamily call hbrief _).run (Mock.honours_sized _) hsize
    rcases hrun.2 _ hresult with hends | ⟨hlink, -⟩
    · cases hends _ rfl
    · cases hlink

/-- The longest name that is admitted fills a report. -/
theorem reports_fit_longest_name :
    let r : Remote := ⟨.mh, 4, none⟩
    let call : Call .mh (List UInt8) := .fetchFile (String.ofList (List.replicate 55 'x'))
    let run := (call.perform r).run.run Mock.device {}
    r.family = .mh ∧ call.Brief ∧ (run.trace.filterMap Step.written?).map List.length = [64] ∧
      (∀ report ∈ run.trace.filterMap Step.written?, report.length ≤ Family.mh.reportSize) ∧
      ∀ length limit, run.result ≠ .error (.failed (.link (.reportTooLarge length limit))) := by
  intro r call run
  have hfit := reports_fit (r := r) rfl call trivial
  exact ⟨rfl, trivial, by decide +kernel, hfit.1 Mock.device {}, hfit.2 {} rfl⟩

end Call

end UniversalRemote
