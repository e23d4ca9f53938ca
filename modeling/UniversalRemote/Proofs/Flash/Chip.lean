import UniversalRemote.Identity
import UniversalRemote.Proofs.Flash.Tiling
/-!
# Chips where architectures map them

Every known chip has 24-bit addresses at the flash base of every architecture, and the configuration
begins inside it.
-/

namespace UniversalRemote

namespace Architecture

variable (a : Architecture)

theorem cookieSize_le : a.map.cookieSize ≤ 4 := by
  cases a <;> decide

theorem endVector_le : a.map.endVector ≤ 5 := by
  cases a <;> decide

theorem flashBase_le : a.map.flashBase ≤ a.map.configBase := by
  cases a <;> decide

theorem configBase_le : a.map.configBase.toNat ≤ 0x820000 := by
  cases a <;> decide

end Architecture

namespace FlashChip

theorem ascending_boundaries (chip : FlashChip) : (0 :: chip.boundaries).Pairwise (· < ·) := by
  cases chip <;> decide

theorem addressable_layout (a : Architecture) (chip : FlashChip) :
    (chip.layout a.map.flashBase).Addressable where
  ascending := ascending_boundaries chip
  stop_le := by cases a <;> cases chip <;> decide

theorem inside_layout {a : Architecture} (chip : FlashChip) {stop : UInt32}
    (hstop : (chip.layout a.map.flashBase).stop = some stop) {length : Nat}
    (hfits : a.map.configBase.toNat + length ≤ stop.toNat) :
    (chip.layout a.map.flashBase).Inside a.map.configBase.toNat length :=
  (addressable_layout a chip).inside hstop (UInt32.le_iff_toNat_le.1 a.flashBase_le) hfits

end FlashChip

/-! ## Identities -/

/-- An identity tells of an architecture and a flash chip. -/
def Identity.Tells (i : Identity) (a : Architecture) (chip : FlashChip) : Prop :=
  i.architectureCode = a.code ∧ i.chip = some chip

namespace Identity.Tells

variable {i : Identity} {a : Architecture} {chip : FlashChip}

theorem architecture_eq (h : i.Tells a chip) : i.architecture = some a := by
  rw [Identity.architecture, h.1, Architecture.ofCode?_code]

theorem memoryMap_eq (h : i.Tells a chip) : i.memoryMap = .ok a.map := by
  rw [Identity.memoryMap, h.architecture_eq]

theorem sectorLayout_eq (h : i.Tells a chip) : i.sectorLayout = .ok (chip.layout a.map.flashBase) := by
  simp [Identity.sectorLayout, h.memoryMap_eq, h.2]
  rfl

end Identity.Tells

/-- An identity with a memory map and sectors tells of an architecture and a chip. -/
theorem Identity.exists_tells {i : Identity} {map : MemoryMap} {layout : SectorLayout}
    (hmap : i.memoryMap = .ok map) (hlayout : i.sectorLayout = .ok layout) :
    ∃ a chip, i.Tells a chip ∧ map = a.map ∧ layout = chip.layout a.map.flashBase := by
  cases ha : i.architecture with
  | none => simp [Identity.memoryMap, ha] at hmap
  | some a =>
    obtain rfl : a.map = map := by simpa [Identity.memoryMap, ha] using hmap
    cases hchip : i.chip with
    | none =>
      rw [Identity.sectorLayout, hmap, hchip] at hlayout
      exact nomatch hlayout
    | some chip =>
      rw [Identity.sectorLayout, hmap, hchip] at hlayout
      have hcode : a.code = i.architectureCode := by simpa using List.find?_some ha
      exact ⟨a, chip, ⟨hcode.symm, hchip⟩, rfl, (Except.ok.inj hlayout).symm⟩

end UniversalRemote
