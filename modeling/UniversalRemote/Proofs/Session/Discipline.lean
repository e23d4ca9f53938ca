import UniversalRemote.Link.Script
import UniversalRemote.Proofs.Classic.Inquiry
import UniversalRemote.Proofs.Flash.Chip
/-!
# The discipline of storing a configuration

Whatever a classic remote answers, a session that stores a configuration changes its flash only where
the configuration area of the remote is, in the order that `Classic.Permitted` asks for, and not at
all where the data does not fit. `Left` says what becomes of the identity when this fails.
-/

namespace UniversalRemote.Session

open Operation
open Program (Quiet quiet_refl quiet_step exists_wrote_of_mem)
open Classic (Harmless Modifies Permitted Invalidated Erased programmed programmed_told announced)

variable {session : Session} {past later : List Step} {data : List UInt8}

/-- The identity that a session goes by: the one it knows, or else the one that is announced. -/
def identityIn (session : Session) (past : List Step) : Option Identity :=
  session.identity.or (announced past)

/-- A remote of an identity has a place for some data: it is of a known kind, and the data is not
empty and ends before the last sector does. -/
structure Admits (identity : Identity) (a : Architecture) (chip : FlashChip) (stop : UInt32)
    (data : List UInt8) : Prop where
  tells : identity.Tells a chip
  stop_eq : (chip.layout a.map.flashBase).stop = some stop
  nonempty : data ≠ []
  fits : a.map.configBase.toNat + data.length ≤ stop.toNat

/-- What may be written behind some steps while data is stored. -/
def Disciplined (session : Session) (data : List UInt8) (past : List Step) (report : Report) :
    Prop :=
  Modifies report → ∃ identity a chip stop, session.identityIn past = some identity ∧
    Admits identity a chip stop data ∧
    Permitted (chip.layout a.map.flashBase) a.map.configBase.toNat stop.toNat data.length past report

/-- A failure behind a report that changes the configuration leaves the session with an identity. -/
def Left (past : List Step) (session : Session) : Prop :=
  (∃ report ∈ past.filterMap Step.written?, Modifies report) → session.identity ≠ none

theorem disciplined_of_harmless {report : Report} (h : Harmless report) :
    Disciplined session data past report :=
  fun hmodifies => absurd hmodifies h

theorem left_of_quiet (h : Quiet Harmless [] past) : Left past session := by
  rintro ⟨report, hreport, hmodifies⟩
  obtain ⟨more, rfl, hmore⟩ := h
  exact absurd hmodifies (hmore report hreport)

theorem left_of_identity {identity : Identity} (h : session.identity = some identity) :
    Left past session := by
  intro _ hnone
  rw [h] at hnone
  exact nomatch hnone

theorem identityIn_mono {identity : Identity} (h : session.identityIn past = some identity)
    (hlater : past <+: later) : session.identityIn later = some identity := by
  unfold identityIn at h ⊢
  cases hknown : session.identity with
  | some known => simpa [hknown] using h
  | none =>
    rw [hknown, Option.none_or] at h
    rw [Option.none_or]
    exact Classic.announced_mono h hlater

/-! ## The identity -/

/-- What is known once the identity is: finding it out has changed nothing, the session keeps it, and
in what matters for flash it is the one that the session goes by. -/
structure Identified (session : Session) (later : List Step) (after : Session)
    (identity : Identity) : Prop where
  quiet : Quiet Harmless [] later
  family : after.remote.family = .classic
  kept : after.identity = some identity
  announced : ∃ i, session.identityIn later = some i ∧
    identity.architectureCode = i.architectureCode ∧ identity.chip = i.chip

theorem ensures_identify (hfamily : session.remote.family = .classic)
    (hunknown : session.identity = none) :
    identify.Ensures (Disciplined session data) Left (Identified session) session [] := by
  have htold : Quiet Harmless [] [.told (.stage .identify)] := quiet_step fun _ hnone => nomatch hnone
  rw [identify]
  apply ensures_bind
  apply ensures_notify
  apply ensures_bind
  apply ensures_get
  apply ensures_bind
  apply ensures_lift
  simp only [Remote.identify, hfamily]
  apply Program.ensures_bind
  apply Program.Ensures.weaken (Classic.ensures_identify
    (fun _ _ hharmless => disciplined_of_harmless hharmless) _ rfl)
  intro later _ result ⟨hquiet, hresult⟩
  obtain ⟨answer, c⟩ := result
  apply ensures_bind
  apply ensures_set
  cases answer with
  | error halt => exact ensures_throw (left_of_quiet (htold.trans hquiet))
  | ok identity =>
    apply ensures_bind
    apply ensures_set
    apply ensures_pure
    obtain ⟨i, hannounced, hsame⟩ := hresult identity rfl
    refine ⟨htold.trans hquiet, rfl, rfl, i, ?_, hsame⟩
    rw [identityIn, hunknown, Option.none_or, hannounced]

theorem ensures_knownIdentity (hfamily : session.remote.family = .classic) :
    knownIdentity.Ensures (Disciplined session data) Left (Identified session) session [] := by
  rw [knownIdentity]
  apply ensures_bind
  apply ensures_get
  cases hknown : session.identity with
  | none => exact ensures_identify hfamily hknown
  | some identity =>
    apply ensures_pure
    refine ⟨quiet_refl [], hfamily, hknown, identity, ?_, rfl, rfl⟩
    rw [identityIn, hknown, Option.some_or]

/-! ## Changing flash -/

namespace Admits

variable {identity : Identity} {a : Architecture} {chip : FlashChip} {stop : UInt32}

theorem stop_le (h : Admits identity a chip stop data) : stop.toNat ≤ 0x1000000 := by
  rw [checkedSum_eq_some h.stop_eq]
  exact (chip.addressable_layout a).stop_le

theorem toNat_length (h : Admits identity a chip stop data) :
    (UInt32.ofNat data.length).toNat = data.length := by
  have hfits := h.fits
  have hstop := h.stop_le
  exact Nat.mod_eq_of_lt (by omega)

theorem disciplined (h : Admits identity a chip stop data)
    (hknown : session.identityIn past = some identity) {report : Report}
    (hpermitted : Permitted (chip.layout a.map.flashBase) a.map.configBase.toNat stop.toNat
      data.length past report) : Disciplined session data past report :=
  fun _ => ⟨identity, a, chip, stop, hknown, h, hpermitted⟩

end Admits

/-- The identity is known, and nothing has been written to flash. -/
structure Begun (session : Session) (identity : Identity) (past : List Step) : Prop where
  known : session.identityIn past = some identity
  unwritten : programmed past = 0

/-- The remote has acknowledged that the stored configuration is invalid. -/
structure Voided (session : Session) (identity : Identity) (past : List Step) : Prop
    extends Begun session identity past where
  invalidated : Invalidated past

structure Blank (session : Session) (identity : Identity) (layout : SectorLayout)
    (first length : Nat) (past : List Step) : Prop extends Voided session identity past where
  erased : ∀ s, layout.Has s → s.Overlaps first length → Erased past s

section Change

variable {identity : Identity} {a : Architecture} {chip : FlashChip} {stop : UInt32} {remote : Remote}

theorem Voided.told (h : Voided session identity past) (event : Event) :
    Voided session identity (past ++ [.told event]) where
  known := identityIn_mono h.known (List.prefix_append past _)
  unwritten := (programmed_told event past).trans h.unwritten
  invalidated := h.invalidated.mono (List.prefix_append past _)

theorem Blank.told {layout : SectorLayout} {first length : Nat}
    (h : Blank session identity layout first length past) (event : Event) :
    Blank session identity layout first length (past ++ [.told event]) where
  toVoided := h.toVoided.told event
  erased := fun s hs hoverlaps => (h.erased s hs hoverlaps).mono (List.prefix_append past _)

variable (hadmits : Admits identity a chip stop data) (hfamily : remote.family = .classic)
include hadmits hfamily

theorem ensures_invalidateConfig (h : Begun session identity past) :
    remote.invalidateConfig.Ensures (Disciplined session data)
      (fun later _ => Voided session identity later) past := by
  rw [Remote.invalidateConfig_classic hfamily]
  have hallowed : Disciplined session data past Classic.invalidation :=
    hadmits.disciplined h.known (Classic.permitted_of_not_alters (by decide))
  apply (Classic.ensures_invalidateConfig hallowed).weaken
  intro later hlater _ ⟨hinvalidated, hcount⟩
  exact ⟨⟨identityIn_mono h.known hlater, hcount.trans h.unwritten⟩, hinvalidated⟩

theorem ensures_eraseFlash (h : Voided session identity past) :
    (remote.eraseFlash a.map.configBase (UInt32.ofNat data.length)
        (chip.layout a.map.flashBase)).Ensures (Disciplined session data)
      (fun later _ => Blank session identity (chip.layout a.map.flashBase) a.map.configBase.toNat
        data.length later) past := by
  rw [Remote.eraseFlash_classic hfamily]
  have herase := Classic.ensures_eraseFlash a.map.configBase (UInt32.ofNat data.length) stop.toNat
    (chip.addressable_layout a) h.invalidated
  rw [hadmits.toNat_length] at herase
  apply herase.mono
  · exact fun later hlater _ => hadmits.disciplined (identityIn_mono h.known hlater)
  · intro later hlater _ ⟨hcount, herased⟩
    exact ⟨⟨⟨identityIn_mono h.known hlater, hcount.trans h.unwritten⟩,
      h.invalidated.mono hlater⟩, herased⟩

theorem ensures_writeFlash (h : Blank session identity (chip.layout a.map.flashBase)
    a.map.configBase.toNat data.length past) :
    (remote.writeFlash a.map.configBase data).Ensures (Disciplined session data)
      (fun later _ => session.identityIn later = some identity) past := by
  rw [Remote.writeFlash_classic hfamily]
  have herased : ∀ place, a.map.configBase.toNat ≤ place →
      place < a.map.configBase.toNat + data.length →
      ∃ s, (chip.layout a.map.flashBase).Has s ∧ s.Holds place ∧ Erased past s := by
    intro place hlow hhigh
    obtain ⟨s, hs, hholds⟩ := chip.inside_layout hadmits.stop_eq hadmits.fits place hlow hhigh
    exact ⟨s, hs, hholds, h.erased s hs ⟨place, hholds, hlow, hhigh⟩⟩
  apply (Classic.ensures_write remote.classic hadmits.fits hadmits.stop_le h.invalidated
    h.unwritten herased).mono
  · exact fun later hlater _ => hadmits.disciplined (identityIn_mono h.known hlater)
  · exact fun later hlater _ _ => identityIn_mono h.known hlater

end Change

/-! ## Storing -/

theorem ensures_storeFlashConfig (hfamily : session.remote.family = .classic) (hdata : data ≠ []) :
    (storeFlashConfig data).Ensures (Disciplined session data) Left
      (fun later _ _ => ∃ identity a chip stop, session.identityIn later = some identity ∧
        Admits identity a chip stop data) session [] := by
  rw [storeFlashConfig]
  apply ensures_bind
  apply (ensures_knownIdentity hfamily).weaken
  intro past _ after identity hresult
  -- a failure from here on leaves the session with the identity
  have hleft : ∀ later, Left later after := fun _ => left_of_identity hresult.kept
  apply ensures_bind
  apply ensures_known _ (hleft past)
  intro map hmap
  apply ensures_bind
  apply ensures_known _ (hleft past)
  intro layout hlayout
  apply ensures_bind
  apply ensures_perform _ hleft
  apply Exchange.ensures_ofChecked
  intro stop hstop
  obtain ⟨a, chip, htells, rfl, rfl⟩ := Identity.exists_tells hmap hlayout
  simp only []
  split
  · exact ensures_bind (ensures_throw (hleft past))
  rename_i hcapacity
  rw [toNat_flooredDifference] at hcapacity
  have hpos : 0 < data.length := List.length_pos_iff.2 hdata
  obtain ⟨i, hin, hcode, hchip⟩ := hresult.announced
  have hadmits : Admits i a chip stop data :=
    ⟨⟨hcode.symm.trans htells.1, hchip.symm.trans htells.2⟩, hstop, hdata, by omega⟩
  have hbegun : Begun session i past := ⟨hin, Classic.programmed_of_quiet hresult.quiet⟩
  -- from here on the stages follow one another: begun, voided, blank, written
  apply ensures_bind
  apply ensures_command _ hleft
  apply (ensures_invalidateConfig hadmits hresult.family hbegun).weaken
  intro _ _ _ hvoided
  apply ensures_bind
  apply ensures_notify
  apply ensures_bind
  apply ensures_command _ hleft
  apply (ensures_eraseFlash hadmits hresult.family (hvoided.told _)).weaken
  intro _ _ _ hblank
  apply ensures_bind
  apply ensures_notify
  apply ensures_bind
  apply ensures_command _ hleft
  apply (ensures_writeFlash hadmits hresult.family (hblank.told _)).weaken
  intro written _ _ hknown
  apply ensures_bind
  apply ensures_get
  split
  · apply ensures_bind
    apply ensures_notify
    apply ensures_command _ hleft
    rw [Remote.compareFlash_classic hresult.family]
    apply ((Classic.writes_verify _ _ _).ensures (fun _ _ h => disciplined_of_harmless h) _).weaken
    intro later hlater _ _
    have hprefix := (List.prefix_append written _).trans hlater
    exact ⟨i, a, chip, stop, identityIn_mono hknown hprefix, hadmits⟩
  · exact ensures_pure ⟨i, a, chip, stop, hknown, hadmits⟩

/-- A classic session that stores data keeps to the discipline; where it succeeds, the data was
admitted and the identity is forgotten. -/
theorem ensures_storeConfig (data : List UInt8) (hfamily : session.remote.family = .classic) :
    (storeConfig data).Ensures (Disciplined session data) Left
      (fun later after _ => after.identity = none ∧ ∃ identity a chip stop,
        session.identityIn later = some identity ∧ Admits identity a chip stop data) session [] := by
  rw [storeConfig]
  cases data with
  | nil => exact ensures_bind (ensures_throw (left_of_quiet (quiet_refl [])))
  | cons byte rest =>
    simp only [List.isEmpty_cons, Bool.false_eq_true, if_false]
    apply ensures_bind
    apply ensures_family
    simp only [hfamily]
    apply ensures_bind
    apply (ensures_storeFlashConfig hfamily (List.cons_ne_nil byte rest)).weaken
    intro later _ after _ ⟨identity, a, chip, stop, hin, hadmits⟩
    apply ensures_bind
    apply ensures_forget
    apply ensures_notify
    exact ⟨rfl, identity, a, chip, stop, identityIn_mono hin (List.prefix_append _ _), hadmits⟩

/-! ## Runs -/

/-- Data has no place on a remote: it is empty, or the remote is of an unknown kind, or it is too long
for what is behind the place of the configuration. -/
def Refused (session : Session) (past : List Step) (data : List UInt8) : Prop :=
  data = [] ∨ ∃ identity, session.identityIn past = some identity ∧
    (identity.architecture = none ∨ identity.chip = none ∨
      ∃ a chip stop, identity.Tells a chip ∧ (chip.layout a.map.flashBase).stop = some stop ∧
        stop.toNat - a.map.configBase.toNat < data.length)

theorem Refused.not_admits (h : Refused session past data) {identity : Identity} {a : Architecture}
    {chip : FlashChip} {stop : UInt32} (hin : session.identityIn past = some identity) :
    ¬ Admits identity a chip stop data := by
  intro hadmits
  rcases h with hempty | ⟨other, hother, hrefused⟩
  · exact hadmits.nonempty hempty
  obtain rfl : identity = other := Option.some.inj (hin.symm.trans hother)
  rcases hrefused with harchitecture | hchip | ⟨a', chip', stop', htells, hstop, hlong⟩
  · rw [hadmits.tells.architecture_eq] at harchitecture
    exact nomatch harchitecture
  · rw [hadmits.tells.2] at hchip
    exact nomatch hchip
  · obtain rfl : a = a' :=
      Option.some.inj (hadmits.tells.architecture_eq.symm.trans htells.architecture_eq)
    obtain rfl : chip = chip' := Option.some.inj (hadmits.tells.2.symm.trans htells.2)
    obtain rfl : stop = stop' := Option.some.inj (hadmits.stop_eq.symm.trans hstop)
    have := hadmits.fits
    omega

/-- Whatever the device does, every report that changes the stored configuration is permitted where
it is written, and data that has no place makes the operation fail without such a report. -/
theorem storeConfig_disciplined (device : Device σ) (state : σ) (session : Session)
    (hfamily : session.remote.family = .classic) (data : List UInt8) :
    let run := ((storeConfig data).run.run session).run device state
    (∀ past report outcome rest, run.trace = past ++ .wrote report outcome :: rest →
      Modifies report → ∃ identity a chip stop, session.identityIn past = some identity ∧
        Admits identity a chip stop data ∧
        Permitted (chip.layout a.map.flashBase) a.map.configBase.toNat stop.toNat data.length past
          report) ∧
    (Refused session run.trace data → (∃ halt, run.result.1 = .error halt) ∧
      ∀ report ∈ run.trace.filterMap Step.written?, ¬ Modifies report) := by
  intro run
  obtain ⟨hend, hobeys⟩ := (ensures_storeConfig data hfamily).run device state
  rw [List.nil_append] at hend
  have hreports : ∀ past report outcome rest, run.trace = past ++ .wrote report outcome :: rest →
      Disciplined session data past report := hobeys
  refine ⟨hreports, fun hrefused => ⟨?_, fun report hreport hmodifies => ?_⟩⟩
  · cases hresult : run.result.1 with
    | error halt => exact ⟨halt, rfl⟩
    | ok _ =>
      rw [hresult] at hend
      obtain ⟨-, identity, a, chip, stop, hin, hadmits⟩ := hend
      exact absurd hadmits (hrefused.not_admits hin)
  · obtain ⟨past, outcome, rest, htrace⟩ := exists_wrote_of_mem hreport
    obtain ⟨identity, a, chip, stop, hin, hadmits, -⟩ :=
      hreports past report outcome rest htrace hmodifies
    have hlater : past <+: run.trace := by
      rw [htrace]
      exact List.prefix_append past _
    exact hrefused.not_admits (identityIn_mono hin hlater) hadmits

/-- The command to erase the sector at the start of the configuration, behind an acknowledgement. -/
theorem storeConfig_disciplined_erase :
    let identity : Identity := {
      family := .classic, architectureCode := 3, flashManufacturer := 0xFF, flashDevice := 0x11 }
    let session : Session := ⟨{}, ⟨.classic, 2000, some ⟨1, 3⟩⟩, some identity⟩
    let past : List Step := [.wrote [0xA1, 0x02] (.ok ()), .read 500 (.ok [0xF0, 0x02]),
      .told (.stage .eraseFlash)]
    ∃ identity a chip stop, session.identityIn past = some identity ∧
      Admits identity a chip stop [0x69, 0x03] ∧
      Permitted (chip.layout a.map.flashBase) a.map.configBase.toNat stop.toNat 2 past
        [0xD3, 0x02, 0x00, 0x00] := by
  intro identity session past
  exact (storeConfig_disciplined Script.device { reads := [.report [0xF0, 0x02]] } session rfl
    [0x69, 0x03]).1 past _ (.ok ()) _ rfl (by decide)

end UniversalRemote.Session
