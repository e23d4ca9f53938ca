import UniversalRemote.Link.Script
import UniversalRemote.Proofs.Classic.Inquiry
import UniversalRemote.Proofs.Flash.Area
/-!
# Fetching a configuration within flash

A session goes by what the header of a configuration says of its length. Where the end that the header
tells is inside flash, no byte outside flash is asked for (`fetchConfig_inside_flash`). A header is not
refused for its end, though, and can tell of more than flash holds (`ofHeader_outside_flash`).
-/

namespace UniversalRemote

namespace Classic

open Exchange

/-- A command to send bytes of flash that are all in a range. -/
structure ReadsWithin (first stop : Nat) (report : Report) : Prop where
  reads : Commands 0x50 report
  first_le : first ≤ addressOf report
  le_stop : addressOf report + lengthOf report ≤ stop

theorem readsWithin_readCommand {first stop size : Nat} {start : UInt32}
    (hfirst : first ≤ start.toNat) (hstop : start.toNat + size ≤ stop) (hroom : stop < 0x1000000)
    (hsize : size < 0x10000) : ReadsWithin first stop (readCommand start size) := by
  have haddress : addressOf (readCommand start size) = start.toNat :=
    addressOf_command 0x55 start (by omega) size
  have hlength : lengthOf (readCommand start size) = size := lengthOf_command 0x55 start hsize
  refine ⟨?_, haddress ▸ hfirst, ?_⟩
  · rw [Commands, readCommand, List.cons_append, List.headD_cons]
    decide
  · rw [haddress, hlength]
    exact hstop

theorem writes_read_within (c : Classic) {address : UInt32} {length stop : Nat}
    (hstop : address.toNat + length ≤ stop) (hroom : stop < 0x1000000) :
    (c.read address length).Writes (ReadsWithin address.toNat stop) := by
  rw [Classic.read, Classic.framing, Classic.known]
  cases c.geometry with
  | none => exact writes_throw _
  | some geometry =>
    have hread : ∀ offset start, offset ≤ length →
        checkedSum address (UInt32.ofNat offset) = some start → ReadsWithin address.toNat stop
          (readCommand start
            (min (length - offset) (Framing.ofProtocol geometry.protocol).readSize)) := by
      intro offset start hoffset hstart
      have hsum := checkedSum_eq_some hstart
      have hword : (UInt32.ofNat offset).toNat = offset := Nat.mod_eq_of_lt (by omega)
      have hsize := (lawful_ofProtocol geometry.protocol).readSize_le
      exact readsWithin_readCommand (by omega) (by omega) hroom (by omega)
    simp only [pure_bind]
    exact writes_bind (writes_transfer (fun _ _ _ => writes_pure _) _ _ _ _ _ hread _)
      fun _ => writes_pure _

end Classic

namespace Session

open Operation

variable {session : Session} {identity : Identity} {a : Architecture} {kibibytes : UInt32}
  {header : List UInt8}

/-- A session that knows the identity of a remote only reads what this identity tells. -/
theorem ensures_fetchConfig {harmless : Report → Prop} (hfamily : session.remote.family = .classic)
    (hidentity : session.identity = some identity) (harchitecture : identity.architecture = some a)
    (hread : (session.remote.classic.read a.map.configBase identity.area.used.toNat).Writes
      harmless) :
    fetchConfig.Ensures (fun _ => harmless) (fun _ _ => True) (fun _ _ _ => True) session [] := by
  have hmap : identity.memoryMap = .ok a.map := by
    rw [Identity.memoryMap, harchitecture]
  have hknown : fetchFlashConfig.Ensures (fun _ => harmless) (fun _ _ => True)
      (fun _ _ _ => True) session [] := by
    unfold fetchFlashConfig knownIdentity
    apply ensures_bind
    apply ensures_bind
    apply ensures_get
    rw [hidentity]
    apply ensures_pure
    split
    · exact ensures_bind (ensures_throw trivial)
    · apply ensures_bind
      apply ensures_known _ trivial
      intro map hother
      obtain rfl : a.map = map := Except.ok.inj (hmap.symm.trans hother)
      apply ensures_bind
      apply ensures_notify
      apply ensures_command _ fun _ => trivial
      rw [Remote.readFlash_classic hfamily]
      exact (hread.ensures (fun _ _ h => h) _).weaken fun _ _ _ _ => trivial
  unfold fetchConfig
  apply ensures_bind
  apply ensures_family
  rw [hfamily]
  exact ensures_bind (hknown.weaken fun _ _ _ _ _ => ensures_bind (ensures_notify trivial))

theorem readsWithin_fetchConfig (h : a.Heads header) (hend : a.EndsInside header kibibytes)
    (hkibibytes : kibibytes.toNat ≤ 2048) (hfamily : session.remote.family = .classic)
    (hidentity : session.identity = some identity) (harchitecture : identity.architecture = some a)
    (harea : identity.area = ConfigArea.ofHeader a.map kibibytes header) (device : Device σ)
    (state : σ) {report : Report}
    (hreport : report ∈
      ((fetchConfig.run.run session).run device state).trace.filterMap Step.written?) :
    Classic.ReadsWithin a.map.configBase.toNat
      (a.map.flashBase.toNat + kibibytes.toNat * 1024) report := by
  have hbase := UInt32.le_iff_toNat_le.1 a.flashBase_le
  have hconfig := a.configBase_le
  have hstop := harea ▸ ConfigArea.configBase_add_used_le h hend
  have hread := Classic.writes_read_within session.remote.classic hstop (by omega)
  have hobeys := ((ensures_fetchConfig hfamily hidentity harchitecture hread).run device state).2
  exact hobeys.written report hreport

/-- A header is accepted for its length and its cookie, whatever end it tells. Flash has room for the
length that follows exactly if that end is inside flash, and then a session that goes by such an
identity asks for no byte outside flash when it fetches the configuration. -/
theorem fetchConfig_inside_flash (a : Architecture) (kibibytes : UInt32) (header : List UInt8)
    (hsize : a.configOffset < kibibytes.toNat * 1024) (hkibibytes : kibibytes.toNat ≤ 2048) :
    let area := ConfigArea.ofHeader a.map kibibytes header
    (area.valid = true ↔ a.Heads header) ∧
    (area.valid = true → ((4 ≤ area.used.toNat ∧ area.used ≤ area.capacity) ↔
      a.EndsInside header kibibytes)) ∧
    (area.valid = true → a.EndsInside header kibibytes →
      ∀ (session : Session) (identity : Identity), session.remote.family = .classic →
        session.identity = some identity → identity.architecture = some a →
        identity.area = area → ∀ {σ : Type} (device : Device σ) (state : σ),
          ∀ report ∈ ((fetchConfig.run.run session).run device state).trace.filterMap Step.written?,
            Classic.ReadsWithin a.map.configBase.toNat
              (a.map.flashBase.toNat + kibibytes.toNat * 1024) report) := by
  intro area
  have hheads : area.valid = true ↔ a.Heads header := ConfigArea.valid_ofHeader_iff
  refine ⟨hheads, fun hvalid => ?_, fun hvalid hend => ?_⟩
  · exact ConfigArea.fits_iff (hheads.1 hvalid) hsize hkibibytes
  · intro session identity hfamily hidentity harchitecture harea σ device state report
    exact readsWithin_fetchConfig (hheads.1 hvalid) hend hkibibytes hfamily hidentity harchitecture
      harea device state

/-- Eight bytes at the place of configurations. -/
theorem fetchConfig_inside_flash_eight_bytes :
    let header : List UInt8 := [0x54, 0x50, 0x54, 0x50, 0x04, 0x00, 0x02]
    let area := ConfigArea.ofHeader Architecture.a8.map 2048 header
    let identity : Identity := { family := .classic, architectureCode := 8, area }
    let session : Session := ⟨{}, ⟨.classic, 10, some ⟨1, 8⟩⟩, some identity⟩
    let run := (fetchConfig.run.run session).run Script.device { reads := [] }
    (area = ⟨true, 8, 0x1E0000⟩ ∧ 4 ≤ area.used.toNat ∧ area.used ≤ area.capacity) ∧
    run.trace.filterMap Step.written? = [Classic.readCommand 0x20000 8] ∧
    ∀ report ∈ run.trace.filterMap Step.written?, Classic.ReadsWithin 0x20000 0x200000 report := by
  have hinside : Architecture.a8.EndsInside [0x54, 0x50, 0x54, 0x50, 0x04, 0x00, 0x02] 2048 :=
    ⟨by decide, by decide⟩
  obtain ⟨-, hfits, hreads⟩ := fetchConfig_inside_flash .a8 2048
    [0x54, 0x50, 0x54, 0x50, 0x04, 0x00, 0x02] (by decide) (by decide)
  refine ⟨⟨by decide, (hfits rfl).2 hinside⟩, by decide, ?_⟩
  exact hreads rfl hinside _ _ rfl rfl rfl rfl Script.device { reads := [] }

/-- A header whose end is the last address there is tells of a configuration that is longer than
flash. -/
theorem ofHeader_outside_flash :
    let area := ConfigArea.ofHeader Architecture.a8.map 2048
      [0x54, 0x50, 0x54, 0x50, 0xFF, 0xFF, 0xFF]
    Architecture.a8.configOffset < 2048 * 1024 ∧ area.valid = true ∧ area.capacity < area.used := by
  decide

end Session

end UniversalRemote
