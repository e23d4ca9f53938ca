import Mathlib.Tactic.ByContra
import UniversalRemote.Proofs.Classic.Transfer
/-!
# Erasing, writing, verifying and reading flash

What a host erases, writes, verifies and reads back on a simulated remote is what it wrote. Around
it the sectors it needed are erased, and no other byte has changed.
-/

namespace UniversalRemote.Classic.Simulated

open Exchange

variable {r : Simulated}

/-- Erasing a range erases the sectors that overlap it. -/
theorem ending_eraseFlash (hlayout : r.layout.Addressable) (m : Memory) (cursor : Nat)
    (address length : UInt32) :
    ∃ chosen, (∀ s, s ∈ chosen ↔ r.layout.Has s ∧ s.Overlaps address.toNat length.toNat) ∧
      (eraseFlash address length r.layout).ending r.device ⟨m, cursor, []⟩ =
        (.ok (), ⟨m.erase chosen, cursor, []⟩) := by
  obtain ⟨sectors, hsectors, htiles⟩ := hlayout.exists_sectors
  obtain ⟨chosen, hchosen⟩ : ∃ chosen, r.layout.overlapping address length = some chosen := by
    unfold SectorLayout.overlapping
    split
    · exact ⟨_, rfl⟩
    · rw [hsectors]
      exact ⟨_, rfl⟩
  have hmem := fun s => SectorLayout.mem_overlapping (s := s) hlayout.fits hchosen
  refine ⟨chosen, hmem, ?_⟩
  have hsub : ∀ t ∈ chosen, t ∈ sectors := by
    intro t ht
    obtain ⟨⟨sectors', hsectors', ht'⟩, -⟩ := (hmem t).1 ht
    rwa [Option.some.inj (hsectors.symm.trans hsectors')]
  rw [eraseFlash, ending_bind_ok (ending_ofChecked_some hchosen)]
  exact ending_eraseSectors hsectors htiles hlayout.stop_le m cursor _ chosen hsub 0

/-! ## Operations of a remote whose geometry is known -/

section Known

variable {c : Classic} {g : Geometry} (h : c.geometry = some g)
include h

theorem framing_eq : c.framing = pure (Framing.ofProtocol g.protocol) := by
  simp [Classic.framing, Classic.known, h]

theorem read_eq (address : UInt32) (length : Nat) :
    c.read address length = readFlash (Framing.ofProtocol g.protocol) c.patience address length := by
  simp [Classic.read, framing_eq h]

theorem verify_eq (address : UInt32) (expected : List UInt8) :
    c.verify address expected =
      compareFlash (Framing.ofProtocol g.protocol) c.patience address expected := by
  simp [Classic.verify, framing_eq h]

theorem write_eq (address : UInt32) (data : List UInt8) :
    c.write address data = writeFlash (Framing.ofProtocol g.protocol) address data := by
  simp [Classic.write, framing_eq h]

end Known

/-! ## The whole round -/

/-- A memory has taken on data at a place where its sectors were erased for it: the data is there, the
rest of those sectors is blank, and nothing else has changed. -/
structure Replaced (layout : SectorLayout) (first : Nat) (data : List UInt8) (before after : Memory) :
    Prop where
  written : after.slice first data.length = data
  blank : ∀ s, layout.Has s → s.Overlaps first data.length → ∀ a, s.Holds a →
    (a < first ∨ first + data.length ≤ a) → after a = 0xFF
  kept : ∀ a, (∀ s, layout.Has s → s.Overlaps first data.length → ¬ s.Holds a) → after a = before a

theorem replaced_program_erase {layout : SectorLayout} {first : Nat} {data : List UInt8}
    {chosen : List Sector}
    (hchosen : ∀ s, s ∈ chosen ↔ layout.Has s ∧ s.Overlaps first data.length)
    (hinside : layout.Inside first data.length) (m : Memory) :
    Replaced layout first data m ((m.erase chosen).program first data) where
  written := by
    apply Memory.slice_program
    intro a hfirst hlast
    obtain ⟨s, hs, ha⟩ := hinside a hfirst hlast
    exact m.erase_of_mem ((hchosen s).2 ⟨hs, a, ha, hfirst, hlast⟩) ha
  blank := by
    intro s hs hoverlaps a ha hout
    rw [Memory.program_of_outside _ hout]
    exact m.erase_of_mem ((hchosen s).2 ⟨hs, hoverlaps⟩) ha
  kept := by
    intro a hnone
    have hout : a < first ∨ first + data.length ≤ a := by
      by_contra hin
      obtain ⟨s, hs, ha⟩ := hinside a (by omega) (by omega)
      exact hnone s hs ⟨a, ha, by omega, by omega⟩ ha
    rw [Memory.program_of_outside _ hout]
    exact m.erase_of_not_mem fun s hs => hnone s ((hchosen s).1 hs).1 ((hchosen s).1 hs).2

/-- How a range of a layout is erased, written, verified and read, step by step. -/
theorem ending_replace {c : Classic} {g : Geometry} (hgeometry : c.geometry = some g)
    (hframing : r.framing = Framing.ofProtocol g.protocol) (hpatience : 1024 < c.patience)
    (hlayout : r.layout.Addressable) (m : Memory) (cursor : Nat) {address : UInt32}
    {data : List UInt8} (hinside : r.layout.Inside address.toNat data.length) :
    ∃ erased programmed after, Replaced r.layout address.toNat data m programmed ∧
      (eraseFlash address (UInt32.ofNat data.length) r.layout).ending r.device ⟨m, cursor, []⟩ =
        (.ok (), ⟨erased, cursor, []⟩) ∧
      (c.write address data).ending r.device ⟨erased, cursor, []⟩ =
        (.ok (), ⟨programmed, after, []⟩) ∧
      (c.verify address data).ending r.device ⟨programmed, after, []⟩ =
        (.ok (), ⟨programmed, after, []⟩) ∧
      (c.read address data.length).ending r.device ⟨programmed, after, []⟩ =
        (.ok data, ⟨programmed, after, []⟩) := by
  have hf : r.framing.Lawful := hframing ▸ lawful_ofProtocol g.protocol
  have hpatient : r.framing.readSize < c.patience := Nat.lt_of_le_of_lt hf.readSize_le hpatience
  have hbound := hinside.end_le hlayout
  have hlength : (UInt32.ofNat data.length).toNat = data.length := by
    rcases Nat.eq_zero_or_pos data.length with hzero | hpos
    · rw [hzero]; rfl
    · have := hbound hpos
      exact Nat.mod_eq_of_lt (by omega)
  obtain ⟨chosen, hchosen, herase⟩ :=
    ending_eraseFlash hlayout m cursor address (UInt32.ofNat data.length)
  rw [hlength] at hchosen
  have hreplaced := replaced_program_erase hchosen hinside m
  obtain ⟨after, hwrite⟩ := ending_writeFlash hf (m.erase chosen) cursor hbound
  have hverify := ending_compareFlash hf _ after hbound hpatient hreplaced.written
  have hread := ending_readFlash hf ((m.erase chosen).program address.toNat data) after hbound
    hpatient
  rw [hreplaced.written] at hread
  rw [hframing] at hwrite hverify hread
  refine ⟨m.erase chosen, _, after, hreplaced, herase, ?_, ?_, ?_⟩
  · rw [write_eq hgeometry, hwrite]
  · rw [verify_eq hgeometry, hverify]
  · rw [read_eq hgeometry, hread]

/-- A range of a layout is erased, written, verified and read back: every step succeeds, the data is
there, and outside the range exactly the overlapping sectors are erased. The host needs no more
patience than for the packets of one chunk. -/
theorem erase_write_verify_read {c : Classic} {g : Geometry} (hgeometry : c.geometry = some g)
    (hframing : r.framing = Framing.ofProtocol g.protocol) (hpatience : 1024 < c.patience)
    (hlayout : r.layout.Addressable) (m : Memory) (cursor : Nat) (address : UInt32)
    (data : List UInt8) (hinside : r.layout.Inside address.toNat data.length) :
    let erased := (eraseFlash address (UInt32.ofNat data.length) r.layout).ending r.device
      ⟨m, cursor, []⟩
    let written := (c.write address data).ending r.device erased.2
    let verified := (c.verify address data).ending r.device written.2
    let read := (c.read address data.length).ending r.device verified.2
    erased.1 = .ok () ∧ written.1 = .ok () ∧ verified.1 = .ok () ∧ read.1 = .ok data ∧
      read.2 = verified.2 ∧
      verified.2.memory.slice address.toNat data.length = data ∧
      (∀ s, r.layout.Has s → s.Overlaps address.toNat data.length → ∀ a, s.Holds a →
        (a < address.toNat ∨ address.toNat + data.length ≤ a) → verified.2.memory a = 0xFF) ∧
      (∀ a, (∀ s, r.layout.Has s → s.Overlaps address.toNat data.length → ¬ s.Holds a) →
        verified.2.memory a = m a) := by
  intro erased written verified read
  obtain ⟨blank, programmed, after, hreplaced, herase, hwrite, hverify, hread⟩ :=
    ending_replace hgeometry hframing hpatience hlayout m cursor hinside
  have herased : erased = (.ok (), ⟨blank, cursor, []⟩) := herase
  have hwritten : written = (.ok (), ⟨programmed, after, []⟩) := by
    rw [← hwrite]
    simp only [written, herased]
  have hverified : verified = (.ok (), ⟨programmed, after, []⟩) := by
    rw [← hverify]
    simp only [verified, hwritten]
  have hreads : read = (.ok data, ⟨programmed, after, []⟩) := by
    rw [← hread]
    simp only [read, hverified]
  rw [herased, hwritten, hverified, hreads]
  exact ⟨rfl, rfl, rfl, rfl, rfl, hreplaced.written, hreplaced.blank, hreplaced.kept⟩

/-- Four bytes across the boundary of two sectors. -/
theorem read_across_boundary :
    let r : Simulated := ⟨⟨0, [0, 0x10, 0x20]⟩, Framing.early, []⟩
    let c : Classic := ⟨2000, some ⟨0, 3⟩⟩
    let erased := (eraseFlash 14 4 r.layout).ending r.device ⟨fun _ => 0, 0, []⟩
    let written := (c.write 14 [1, 2, 3, 4]).ending r.device erased.2
    let verified := (c.verify 14 [1, 2, 3, 4]).ending r.device written.2
    ((c.read 14 4).ending r.device verified.2).1 = .ok [1, 2, 3, 4] := by
  refine (erase_write_verify_read (r := ⟨⟨0, [0, 0x10, 0x20]⟩, Framing.early, []⟩)
    (c := ⟨2000, some ⟨0, 3⟩⟩) (g := ⟨0, 3⟩) rfl rfl (by decide) ⟨by decide, by decide⟩ _ _ 14
    [1, 2, 3, 4] fun address hfirst hlast => ?_).2.2.2.1
  have hsectors : SectorLayout.sectors ⟨0, [0, 0x10, 0x20]⟩ =
      some [⟨0, 0x10⟩, ⟨0x10, 0x20⟩] := by decide
  by_cases hlow : address < 0x10
  · exact ⟨⟨0, 0x10⟩, ⟨_, hsectors, by simp⟩, Nat.zero_le _, hlow⟩
  · exact ⟨⟨0x10, 0x20⟩, ⟨_, hsectors, by simp⟩, Nat.le_of_not_lt hlow, Nat.lt_trans hlast (by decide)⟩

end UniversalRemote.Classic.Simulated
