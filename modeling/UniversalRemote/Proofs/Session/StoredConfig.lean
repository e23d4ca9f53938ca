import UniversalRemote.Proofs.Classic.Identification
import UniversalRemote.Proofs.Flash.Area
/-!
# Stored configurations are fetched again

A session that stores a configuration on a simulated remote gets it back when it fetches the stored
configuration. The end of what is fetched is read off the data itself, so the data has to begin the
way configurations do.
-/

namespace UniversalRemote

/-- Data begins the way configurations of an architecture do, with its cookie and its own end. -/
structure Architecture.Accepts (a : Architecture) (data : List UInt8) : Prop where
  length_ge : 8 ≤ data.length
  cookie : ByteOrder.little.value (data.take a.map.cookieSize) = a.map.cookie.toNat
  stop : ByteOrder.little.value ((data.drop a.map.endVector).take 3) =
    a.map.configBase.toNat - a.map.flashBase.toNat + data.length - 4

/-! ## The area of a stored configuration -/

/-- A memory that holds accepted data at the place of the configuration is seen to hold a valid
configuration of its length. -/
theorem ofHeader_slice {a : Architecture} {data : List UInt8} (h : a.Accepts data) {m : Memory}
    (hslice : m.slice a.map.configBase.toNat data.length = data)
    (hlength : data.length ≤ 0x1000000) (kibibytes : UInt32) :
    let area := ConfigArea.ofHeader a.map kibibytes (m.slice a.map.configBase.toNat 1024)
    area.valid = true ∧ area.used.toNat = data.length := by
  have hsize := a.cookieSize_le
  have hend := a.endVector_le
  have hbase := UInt32.le_iff_toNat_le.1 a.flashBase_le
  have hlong := h.length_ge
  have hcookie : (m.slice a.map.configBase.toNat 1024).take a.map.cookieSize =
      data.take a.map.cookieSize := by
    conv => rhs; rw [← hslice]
    rw [m.take_slice (by omega), m.take_slice (by omega)]
  have hvector : ((m.slice a.map.configBase.toNat 1024).drop a.map.endVector).take 3 =
      (data.drop a.map.endVector).take 3 := by
    conv => rhs; rw [← hslice]
    rw [m.drop_slice, m.drop_slice, m.take_slice (by omega), m.take_slice (by omega)]
  have hheads : a.Heads (m.slice a.map.configBase.toNat 1024) := by
    refine ⟨?_, hcookie ▸ h.cookie⟩
    rw [m.length_slice]
    omega
  refine ⟨ConfigArea.valid_ofHeader_iff.2 hheads, ?_⟩
  have hconfig := a.configBase_le
  rw [ConfigArea.toNat_used hheads, Architecture.stopIn, Architecture.configOffset, hvector, h.stop]
  omega

namespace Session

open Operation
open Classic (Simulated)

variable {session : Session} {a : Architecture} {chip : FlashChip} {protocol : UInt8}
  {r : Simulated}

/-! ## Identifying -/

theorem ending_identify (h : r.Built a chip protocol) (hfamily : session.remote.family = .classic)
    (hpatience : 1024 < session.remote.patience) (m : Memory) (cursor : Nat) :
    ∃ identity : Identity, identity.Tells a chip ∧
      identity.area =
        ConfigArea.ofHeader a.map chip.kibibytes (m.slice a.map.configBase.toNat 1024) ∧
      identify.ending r.device session ⟨m, cursor, []⟩ =
        ((.ok identity, { session with
          remote := { session.remote with geometry := some ⟨protocol, a.code⟩ }
          identity := some identity }), ⟨m, cursor, []⟩) := by
  obtain ⟨identity, htells, harea, hidentify⟩ :=
    Simulated.ending_identify h (c := session.remote.classic) hpatience m cursor
  refine ⟨identity, htells, harea, ?_⟩
  have hremote : session.remote.identify.ending r.device ⟨m, cursor, []⟩ =
      ((.ok identity, { session.remote with geometry := some ⟨protocol, a.code⟩ }),
        ⟨m, cursor, []⟩) := by
    simp only [Remote.identify, hfamily]
    rw [Program.ending_monad_bind, hidentify]
    rfl
  rw [identify, ending_bind_ok (ending_begin _), ending_bind_ok ending_get,
    ending_bind_ok (ending_lift _), hremote]
  rfl

/-- What a session has learned of a remote, if anything, is true of what the remote is built of, and
its host has the patience for the packets of one chunk. -/
structure Faces (session : Session) (a : Architecture) (chip : FlashChip) (protocol : UInt8) :
    Prop where
  family : session.remote.family = .classic
  patient : 1024 < session.remote.patience
  known : ∀ identity, session.identity = some identity →
    identity.Tells a chip ∧ session.remote.geometry = some ⟨protocol, a.code⟩

/-- Whether or not the identity was known, it is known afterwards. -/
theorem ending_knownIdentity (h : r.Built a chip protocol) (hs : session.Faces a chip protocol)
    (m : Memory) (cursor : Nat) :
    ∃ identity after, identity.Tells a chip ∧ Faces after a chip protocol ∧
      after.remote.geometry = some ⟨protocol, a.code⟩ ∧
      knownIdentity.ending r.device session ⟨m, cursor, []⟩ =
        ((.ok identity, after), ⟨m, cursor, []⟩) := by
  cases hidentity : session.identity with
  | some identity =>
    obtain ⟨htells, hgeometry⟩ := hs.known identity hidentity
    refine ⟨identity, session, htells, hs, hgeometry, ?_⟩
    rw [knownIdentity, ending_bind_ok ending_get, hidentity, ending_pure]
  | none =>
    obtain ⟨identity, htells, -, hidentify⟩ := ending_identify h hs.family hs.patient m cursor
    refine ⟨identity, { session with
      remote := { session.remote with geometry := some ⟨protocol, a.code⟩ }
      identity := some identity }, htells, ⟨hs.family, hs.patient, ?_⟩, rfl, ?_⟩
    · intro other hother
      obtain rfl : identity = other := Option.some.inj hother
      exact ⟨htells, rfl⟩
    · rw [knownIdentity, ending_bind_ok ending_get, hidentity, hidentify]

/-! ## Storing -/

theorem ending_storeFlashConfig (h : r.Built a chip protocol) (hs : session.Faces a chip protocol)
    {stop : UInt32} (hstop : r.layout.stop = some stop) {data : List UInt8}
    (hfits : a.map.configBase.toNat + data.length ≤ stop.toNat) (m : Memory) (cursor : Nat) :
    ∃ programmed after cursor',
      Simulated.Replaced r.layout a.map.configBase.toNat data m programmed ∧
      Faces after a chip protocol ∧
      (storeFlashConfig data).ending r.device session ⟨m, cursor, []⟩ =
        ((.ok (), after), ⟨programmed, cursor', []⟩) := by
  obtain ⟨identity, after, htells, hafter, hgeometry, hknown⟩ := ending_knownIdentity h hs m cursor
  obtain ⟨erased, programmed, cursor', hreplaced, herase, hwrite, hverify, -⟩ :=
    Simulated.ending_replace (c := after.remote.classic) hgeometry h.framing hafter.patient
      h.addressable m cursor (h.inside hstop hfits)
  refine ⟨programmed, after, cursor', hreplaced, hafter, ?_⟩
  have hlayout : identity.sectorLayout = .ok r.layout := by
    rw [htells.sectorLayout_eq, h.layout]
  have hend : (ofChecked r.layout.stop).ending r.device after ⟨m, cursor, []⟩ =
      ((.ok stop, after), ⟨m, cursor, []⟩) :=
    ending_perform_ok (Exchange.ending_ofChecked_some hstop) _
  have hcapacity : ¬ (flooredDifference stop a.map.configBase).toNat < data.length := by
    rw [toNat_flooredDifference]
    omega
  have hinvalidate := Simulated.ending_invalidateConfig (r := r) m cursor
  rw [← Remote.invalidateConfig_classic hafter.family] at hinvalidate
  rw [← Remote.eraseFlash_classic hafter.family] at herase
  rw [← Remote.writeFlash_classic hafter.family] at hwrite
  rw [← Remote.compareFlash_classic hafter.family] at hverify
  rw [storeFlashConfig, ending_bind_ok hknown, ending_bind_ok (ending_known_ok htells.memoryMap_eq),
    ending_bind_ok (ending_known_ok hlayout), ending_bind_ok hend]
  simp only [hcapacity, if_false]
  rw [ending_bind_ok (ending_command_ok hinvalidate _), ending_bind_ok (ending_begin _),
    ending_bind_ok (ending_command_ok herase _), ending_bind_ok (ending_begin _),
    ending_bind_ok (ending_command_ok hwrite _), ending_bind_ok ending_get]
  split
  · rw [ending_bind_ok (ending_begin _), ending_command_ok hverify]
  · exact ending_pure _

/-- Storing succeeds, and the session has forgotten the identity. -/
theorem ending_storeConfig (h : r.Built a chip protocol) (hs : session.Faces a chip protocol)
    {stop : UInt32} (hstop : r.layout.stop = some stop) {data : List UInt8} (hdata : data ≠ [])
    (hfits : a.map.configBase.toNat + data.length ≤ stop.toNat) (m : Memory) (cursor : Nat) :
    ∃ programmed after cursor',
      Simulated.Replaced r.layout a.map.configBase.toNat data m programmed ∧
      Faces after a chip protocol ∧ after.identity = none ∧
      (storeConfig data).ending r.device session ⟨m, cursor, []⟩ =
        ((.ok (), after), ⟨programmed, cursor', []⟩) := by
  obtain ⟨programmed, after, cursor', hreplaced, hafter, hstored⟩ :=
    ending_storeFlashConfig h hs hstop hfits m cursor
  refine ⟨programmed, { after with identity := none }, cursor', hreplaced,
    ⟨hafter.family, hafter.patient, fun _ hnone => nomatch hnone⟩, rfl, ?_⟩
  rw [storeConfig, List.isEmpty_eq_false_iff.2 hdata]
  simp only [Bool.false_eq_true, if_false]
  rw [ending_bind_ok ending_family, hs.family]
  simp only []
  rw [ending_bind_ok hstored, ending_bind_ok ending_forget, ending_notify]

/-! ## Fetching -/

/-- What has been stored is fetched by a session that does not know the identity. -/
theorem ending_fetchConfig (h : r.Built a chip protocol) (hs : session.Faces a chip protocol)
    (hidentity : session.identity = none) {data : List UInt8} (hdata : a.Accepts data)
    {m : Memory} (hslice : m.slice a.map.configBase.toNat data.length = data)
    (hbound : a.map.configBase.toNat + data.length ≤ 0x1000000) (cursor : Nat) :
    ∃ after, fetchConfig.ending r.device session ⟨m, cursor, []⟩ =
      ((.ok data, after), ⟨m, cursor, []⟩) := by
  obtain ⟨identity, htells, harea, hidentify⟩ := ending_identify h hs.family hs.patient m cursor
  obtain ⟨hvalid, hused⟩ := ofHeader_slice hdata hslice (by omega) chip.kibibytes
  rw [← harea] at hvalid hused
  have hf : r.framing.Lawful := h.framing ▸ Classic.lawful_ofProtocol protocol
  have hpatient : r.framing.readSize < session.remote.patience :=
    Nat.lt_of_le_of_lt hf.readSize_le hs.patient
  have hread := Simulated.ending_readFlash hf m cursor (fun _ => hbound) hpatient
  rw [hslice, h.framing] at hread
  obtain ⟨after, hafter⟩ : ∃ after : Session, after = { session with
    remote := { session.remote with geometry := some ⟨protocol, a.code⟩ }
    identity := some identity } := ⟨_, rfl⟩
  rw [← hafter] at hidentify
  have hfamily : after.remote.family = .classic := by rw [hafter, ← hs.family]
  have hcommand : (after.remote.readFlash a.map.configBase data.length).ending r.device
      ⟨m, cursor, []⟩ = (.ok data, ⟨m, cursor, []⟩) := by
    rw [Remote.readFlash_classic hfamily,
      Simulated.read_eq (c := after.remote.classic) (g := ⟨protocol, a.code⟩) (by rw [hafter]; rfl)]
    rw [← hread, hafter]
    rfl
  have hknown : knownIdentity.ending r.device session ⟨m, cursor, []⟩ =
      ((.ok identity, after), ⟨m, cursor, []⟩) := by
    rw [knownIdentity, ending_bind_ok ending_get, hidentity, hidentify]
  have hflash : fetchFlashConfig.ending r.device session ⟨m, cursor, []⟩ =
      ((.ok data, after), ⟨m, cursor, []⟩) := by
    rw [fetchFlashConfig, ending_bind_ok hknown, hvalid]
    simp only [Bool.not_true, Bool.false_eq_true, if_false]
    rw [ending_bind_ok (ending_known_ok htells.memoryMap_eq), ending_bind_ok (ending_begin _), hused,
      ending_command_ok hcommand]
  refine ⟨after, ?_⟩
  rw [fetchConfig, ending_bind_ok ending_family, hs.family]
  simp only []
  rw [ending_bind_ok hflash, ending_bind_ok (ending_notify _), ending_pure]

/-- What is stored is fetched again: for every architecture, chip and protocol version, data that
begins like a configuration and fits its area is stored, whatever the memory held before, fetched
unchanged, and no byte outside the sectors it needs is touched. -/
theorem fetchConfig_storeConfig (h : r.Built a chip protocol) (hs : session.Faces a chip protocol)
    {stop : UInt32} (hstop : r.layout.stop = some stop) {data : List UInt8}
    (hdata : a.Accepts data) (hfits : data.length ≤ stop.toNat - a.map.configBase.toNat)
    (m : Memory) (cursor : Nat) :
    let stored := (storeConfig data).ending r.device session ⟨m, cursor, []⟩
    let fetched := fetchConfig.ending r.device stored.1.2 stored.2
    stored.1.1 = .ok () ∧ fetched.1.1 = .ok data ∧ fetched.2.memory = stored.2.memory ∧
      ∀ place, (∀ s, r.layout.Has s → s.Overlaps a.map.configBase.toNat data.length →
        ¬ s.Holds place) → stored.2.memory place = m place := by
  intro stored fetched
  have hlong := hdata.length_ge
  have hnonempty : data ≠ [] := by
    rintro rfl
    simp at hlong
  have hend := checkedSum_eq_some hstop
  have hle := h.addressable.stop_le
  have hfits' : a.map.configBase.toNat + data.length ≤ stop.toNat := by omega
  obtain ⟨programmed, after, cursor', hreplaced, hafter, hforgotten, hstored⟩ :=
    ending_storeConfig h hs hstop hnonempty hfits' m cursor
  obtain ⟨last, hfetch⟩ :=
    ending_fetchConfig h hafter hforgotten hdata hreplaced.written (by omega) cursor'
  have hstored' : stored = ((.ok (), after), ⟨programmed, cursor', []⟩) := hstored
  have hfetched : fetched = ((.ok data, last), ⟨programmed, cursor', []⟩) := by
    rw [← hfetch]
    simp only [fetched, hstored']
  rw [hfetched, hstored']
  exact ⟨rfl, rfl, rfl, hreplaced.kept⟩

/-- Eight bytes that a third-generation remote keeps in a chip of four sectors. -/
theorem fetchConfig_storeConfig_shortest :
    let r : Simulated := ⟨⟨0, [0, 0x10000, 0x20000, 0x30000, 0x40000]⟩, .current,
      [0x27, 0x36, 0x20, 0x11, 0xFF, 0x30, 0x05, 0x01]⟩
    let session : Session := { settings := {}, remote := { family := .classic, patience := 2000 } }
    let data : List UInt8 := [0x69, 0x03, 0x04, 0x00, 0x02, 0xAA, 0xBB, 0xCC]
    let stored := (storeConfig data).ending r.device session ⟨fun _ => 0, 0, []⟩
    (fetchConfig.ending r.device stored.1.2 stored.2).1.1 = .ok data := by
  intro r session data
  have hbuilt : r.Built .a3 .sa25f020 1 :=
    ⟨rfl, rfl, 0x36, 0x20, 0x11, 0xFF, 0x30, 0x05, [], rfl, rfl, rfl⟩
  have hfaces : session.Faces .a3 .sa25f020 1 := ⟨rfl, by decide, fun _ hnone => nomatch hnone⟩
  have haccepts : Architecture.a3.Accepts data := ⟨by decide, by decide, by decide⟩
  have hstop : r.layout.stop = some 0x40000 := by decide
  exact (fetchConfig_storeConfig hbuilt hfaces hstop haccepts (by decide) (fun _ => 0) 0).2.1

end Session

end UniversalRemote
