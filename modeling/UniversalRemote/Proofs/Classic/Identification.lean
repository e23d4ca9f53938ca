import UniversalRemote.Proofs.Classic.RoundTrip
import UniversalRemote.Proofs.Flash.Chip
/-!
# Identifying a simulated remote

What a host learns of a simulated remote that announces an architecture, a flash chip and a protocol
version: these three, and of the configuration what the memory holds at its place.
-/

namespace UniversalRemote

namespace Classic

/-- A simulated remote is built of an architecture and a flash chip, and speaks a protocol version:
so it announces itself, frames its traffic and cuts its memory into sectors. -/
structure Simulated.Built (r : Simulated) (a : Architecture) (chip : FlashChip) (protocol : UInt8) :
    Prop where
  framing : r.framing = Framing.ofProtocol protocol
  layout : r.layout = chip.layout a.map.flashBase
  version : ∃ firmware hardware device manufacturer generation skin rest,
    r.version =
      [0x27, firmware, hardware, device, manufacturer, generation, skin, protocol] ++ rest ∧
    (generation >>> 4).toUInt16 = a.code ∧ FlashChip.ofIds? manufacturer device = some chip

namespace Simulated

open Exchange

variable {r : Simulated} {a : Architecture} {chip : FlashChip} {protocol : UInt8}

theorem Built.addressable (h : r.Built a chip protocol) : r.layout.Addressable :=
  h.layout ▸ chip.addressable_layout a

/-- A range that begins with the configuration and fits the chip is inside. -/
theorem Built.inside (h : r.Built a chip protocol) {stop : UInt32}
    (hstop : r.layout.stop = some stop) {length : Nat}
    (hfits : a.map.configBase.toNat + length ≤ stop.toNat) :
    r.layout.Inside a.map.configBase.toNat length := by
  rw [h.layout] at hstop ⊢
  exact chip.inside_layout hstop hfits

theorem ending_announce (h : r.Built a chip protocol) (m : Memory) (cursor : Nat) :
    ∃ identity : Identity, identity.Tells a chip ∧ identity.protocol = protocol ∧
      announce.ending r.device ⟨m, cursor, []⟩ = (.ok identity, ⟨m, cursor, []⟩) := by
  obtain ⟨firmware, hardware, device, manufacturer, generation, skin, rest, hversion, hcode, hchip⟩ :=
    h.version
  refine ⟨identityOf 7 ([firmware, hardware, device, manufacturer, generation, skin, protocol] ++ rest),
    ⟨hcode, hchip⟩, rfl, ?_⟩
  have hobey := r.obey_version m cursor
  rw [hversion, List.cons_append] at hobey
  have hkind : kind 0x27 = 0x20 := rfl
  have hlength : lengthCode 0x27 = 7 := rfl
  rw [announce, r.ending_ask _ _ hobey]
  simp only [hkind, hlength]
  rw [if_neg (by decide), if_neg (by simp)]
  exact ending_pure _

theorem ending_describe (hframing : r.framing = Framing.ofProtocol protocol) {c : Classic}
    {identity : Identity} (hidentity : identity.Tells a chip)
    (hgeometry : c.geometry = some ⟨protocol, a.code⟩) (hpatience : 1024 < c.patience) (m : Memory)
    (cursor : Nat) :
    ∃ serials, (c.describe identity).ending r.device ⟨m, cursor, []⟩ =
      (.ok { identity with
        area := ConfigArea.ofHeader a.map chip.kibibytes (m.slice a.map.configBase.toNat 1024)
        serials }, ⟨m, cursor, []⟩) := by
  have hf : r.framing.Lawful := hframing ▸ lawful_ofProtocol protocol
  have hpatient : r.framing.readSize < c.patience := Nat.lt_of_le_of_lt hf.readSize_le hpatience
  have hread : ∀ (address : UInt32) (length : Nat), address.toNat + length ≤ 0x1000000 →
      (c.read address length).ending r.device ⟨m, cursor, []⟩ =
        (.ok (m.slice address.toNat length), ⟨m, cursor, []⟩) := by
    intro address length hbound
    rw [read_eq hgeometry, ← hframing]
    exact ending_readFlash hf m cursor (fun _ => hbound) hpatient
  have hbase := Architecture.configBase_le a
  have hmap : (check identity.memoryMap).ending r.device ⟨m, cursor, []⟩ =
      (.ok a.map, ⟨m, cursor, []⟩) := by
    rw [hidentity.memoryMap_eq]
    exact ending_pure _
  rw [describe, ending_bind_ok hmap, ending_bind_ok (hread _ _ (by omega)), hidentity.2]
  split
  · obtain ⟨serial, hserial⟩ := ending_readBytes m cursor eepromSpace 0x10 48
    exact ⟨Serial.ofBytes serial, by
      rw [ending_bind_ok hserial, ending_bind_ok (ending_progress _ _ _), ending_pure]; rfl⟩
  · have hserial := hread 0x110 48 (by decide)
    exact ⟨Serial.ofBytes (m.slice 0x110 48), by
      rw [ending_bind_ok hserial, ending_bind_ok (ending_progress _ _ _), ending_pure]; rfl⟩

/-- Identifying a simulated remote succeeds and leaves it as it is. -/
theorem ending_identify (h : r.Built a chip protocol) {c : Classic} (hpatience : 1024 < c.patience)
    (m : Memory) (cursor : Nat) :
    ∃ identity : Identity, identity.Tells a chip ∧
      identity.area =
        ConfigArea.ofHeader a.map chip.kibibytes (m.slice a.map.configBase.toNat 1024) ∧
      c.identify.ending r.device ⟨m, cursor, []⟩ =
        ((.ok identity, { c with geometry := some ⟨protocol, a.code⟩ }), ⟨m, cursor, []⟩) := by
  obtain ⟨announced, htells, hprotocol, hannounce⟩ := ending_announce h m cursor
  have hlearned : c.learned announced = { c with geometry := some ⟨protocol, a.code⟩ } := by
    rw [learned, hprotocol, htells.1]
  obtain ⟨serials, hdescribe⟩ := ending_describe h.framing htells (c := c.learned announced)
    (by rw [hlearned]) hpatience m cursor
  refine ⟨{ announced with
    area := ConfigArea.ofHeader a.map chip.kibibytes (m.slice a.map.configBase.toNat 1024)
    serials }, htells, rfl, ?_⟩
  have hannounced : announce.run.ending r.device ⟨m, cursor, []⟩ = _ := hannounce
  have hdescribed : ((c.learned announced).describe announced).run.ending r.device
    ⟨m, cursor, []⟩ = _ := hdescribe
  rw [Classic.identify, Program.ending_monad_bind, hannounced]
  simp only []
  rw [Program.ending_monad_bind, hdescribed, Program.ending_pure, hlearned]

end Simulated

end Classic

end UniversalRemote
