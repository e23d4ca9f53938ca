import UniversalRemote.Flash.Layout
/-!
# Sectors tile the flash memory

The sectors of a layout with ascending boundaries make up its addresses without gap or overlap.
* `Fits.exists_sectors`: such a layout has its sectors, and they tile it.
* `mem_overlapping`, `overlapping_ascending`: the sectors chosen for a range are those with an address
  in it, in ascending order.
-/

namespace UniversalRemote

def Sector.Holds (s : Sector) (address : Nat) : Prop :=
  s.first.toNat ≤ address ∧ address < s.stop.toNat

/-- A sector has one of the `length` addresses from `first` on. -/
def Sector.Overlaps (s : Sector) (first length : Nat) : Prop :=
  ∃ address, s.Holds address ∧ first ≤ address ∧ address < first + length

/-- Sectors that follow one another from `start` up to, not including, `stop`. -/
def Tiles : Nat → List Sector → Nat → Prop
  | start, [], stop => start = stop
  | start, s :: rest, stop =>
    s.first.toNat = start ∧ s.first.toNat < s.stop.toNat ∧ Tiles s.stop.toNat rest stop

namespace Tiles

theorem start_le_stop {sectors : List Sector} {start stop : Nat} (h : Tiles start sectors stop) :
    start ≤ stop := by
  induction sectors generalizing start with
  | nil => exact Nat.le_of_eq h
  | cons s rest ih =>
    obtain ⟨hfirst, hlt, hrest⟩ := h
    have := ih hrest
    omega

theorem bounded {sectors : List Sector} {start stop : Nat} {s : Sector}
    (h : Tiles start sectors stop) (hs : s ∈ sectors) :
    start ≤ s.first.toNat ∧ s.first.toNat < s.stop.toNat ∧ s.stop.toNat ≤ stop := by
  induction sectors generalizing start with
  | nil => simp at hs
  | cons t rest ih =>
    obtain ⟨hfirst, hlt, hrest⟩ := h
    have hle := hrest.start_le_stop
    rcases List.mem_cons.1 hs with rfl | hs
    · omega
    · have := ih hrest hs
      omega

theorem covered {sectors : List Sector} {start stop address : Nat} (h : Tiles start sectors stop)
    (hstart : start ≤ address) (hstop : address < stop) : ∃ s ∈ sectors, s.Holds address := by
  induction sectors generalizing start with
  | nil => exact absurd h (by simp only [Tiles]; omega)
  | cons s rest ih =>
    obtain ⟨hfirst, hlt, hrest⟩ := h
    by_cases hin : address < s.stop.toNat
    · exact ⟨s, by simp, by omega, hin⟩
    · obtain ⟨t, ht, hholds⟩ := ih hrest (by omega)
      exact ⟨t, by simp [ht], hholds⟩

theorem ascending {sectors : List Sector} {start stop : Nat} (h : Tiles start sectors stop) :
    sectors.Pairwise (·.first < ·.first) := by
  induction sectors generalizing start with
  | nil => exact List.Pairwise.nil
  | cons s rest ih =>
    obtain ⟨-, hlt, hrest⟩ := h
    refine List.Pairwise.cons (fun t ht => ?_) (ih hrest)
    have hbounds := hrest.bounded ht
    exact UInt32.lt_iff_toNat_lt.2 (by omega)

/-- Tiles are told apart by their first addresses. -/
theorem find?_first {sectors : List Sector} {start stop : Nat} {s : Sector}
    (h : Tiles start sectors stop) (hs : s ∈ sectors) :
    sectors.find? (fun t => t.first.toNat == s.first.toNat) = some s := by
  induction sectors generalizing start with
  | nil => simp at hs
  | cons t rest ih =>
    obtain ⟨hfirst, hlt, hrest⟩ := h
    rcases List.mem_cons.1 hs with rfl | hs
    · simp
    · have := hrest.bounded hs
      rw [List.find?_cons_of_neg (by simp; omega)]
      exact ih hrest hs

end Tiles

namespace SectorLayout

/-- A layout whose boundaries ascend and whose addresses fit their machine word. -/
structure Fits (layout : SectorLayout) : Prop where
  ascending : layout.boundaries.Pairwise (· < ·)
  stop_lt : layout.base.toNat + (layout.boundaries.getLastD 0).toNat < 0x100000000

/-- A layout whose boundaries ascend and whose addresses have 24 bits. -/
structure Addressable (layout : SectorLayout) : Prop where
  ascending : layout.boundaries.Pairwise (· < ·)
  stop_le : layout.base.toNat + (layout.boundaries.getLastD 0).toNat ≤ 0x1000000

def Has (layout : SectorLayout) (s : Sector) : Prop :=
  ∃ sectors, layout.sectors = some sectors ∧ s ∈ sectors

theorem toNat_le_getLastD {a : UInt32} {rest : List UInt32} (h : (a :: rest).Pairwise (· < ·)) :
    a.toNat ≤ (rest.getLastD a).toNat := by
  induction rest generalizing a with
  | nil => exact Nat.le_refl _
  | cons b rest ih =>
    have hab := UInt32.lt_iff_toNat_lt.1 (List.rel_of_pairwise_cons h (by simp : b ∈ b :: rest))
    have := ih h.of_cons
    rw [List.getLastD_cons]
    omega

/-- The sectors between ascending boundaries, if there are any, tile what lies between the first and
the last of them. -/
theorem tiles_sectors {base a : UInt32} {rest : List UInt32} {sectors : List Sector}
    (hasc : (a :: rest).Pairwise (· < ·)) (h : SectorLayout.sectors ⟨base, a :: rest⟩ = some sectors) :
    Tiles (base.toNat + a.toNat) sectors (base.toNat + (rest.getLastD a).toNat) := by
  induction rest generalizing a sectors with
  | nil =>
    obtain rfl : [] = sectors := by simpa [SectorLayout.sectors] using h
    rfl
  | cons b rest ih =>
    have hab := UInt32.lt_iff_toNat_lt.1 (List.rel_of_pairwise_cons hasc (by simp : b ∈ b :: rest))
    simp only [SectorLayout.sectors, sector, List.tail_cons, List.zip_cons_cons, List.mapM_cons,
      Option.bind_eq_bind, Option.pure_def, Option.bind_eq_some_iff, Option.some.injEq] at h
    obtain ⟨s, ⟨first, hfirst, stop, hstop, rfl⟩, later, hlater, rfl⟩ := h
    have hfirst := checkedSum_eq_some hfirst
    have hstop := checkedSum_eq_some hstop
    have hrest : SectorLayout.sectors ⟨base, b :: rest⟩ = some later := by
      simpa only [SectorLayout.sectors, sector, List.tail_cons, Option.bind_eq_bind,
        Option.pure_def] using hlater
    have htiles := ih hasc.of_cons hrest
    rw [← hstop] at htiles
    rw [List.getLastD_cons]
    exact ⟨hfirst, by dsimp only; omega, htiles⟩

theorem exists_sectors_cons (base : UInt32) {a : UInt32} {rest : List UInt32}
    (hasc : (a :: rest).Pairwise (· < ·))
    (hbound : base.toNat + (rest.getLastD a).toNat < 0x100000000) :
    ∃ sectors, SectorLayout.sectors ⟨base, a :: rest⟩ = some sectors := by
  induction rest generalizing a with
  | nil => exact ⟨[], by simp [sectors]⟩
  | cons b rest ih =>
    rw [List.getLastD_cons] at hbound
    have hab := UInt32.lt_iff_toNat_lt.1 (List.rel_of_pairwise_cons hasc (by simp : b ∈ b :: rest))
    have hlast := toNat_le_getLastD hasc.of_cons
    obtain ⟨sectors, hsectors⟩ := ih hasc.of_cons hbound
    obtain ⟨first, hfirst⟩ : ∃ first, checkedSum base a = some first :=
      ⟨base + a, if_pos (by omega)⟩
    obtain ⟨stop, hstop⟩ : ∃ stop, checkedSum base b = some stop :=
      ⟨base + b, if_pos (by omega)⟩
    have hsector : sector ⟨base, a :: b :: rest⟩ a b = some ⟨first, stop⟩ := by
      simp [sector, hfirst, hstop]
    have hrest : ((b :: rest).zip rest).mapM
        (fun p => sector ⟨base, a :: b :: rest⟩ p.1 p.2) = some sectors := hsectors
    exact ⟨⟨first, stop⟩ :: sectors, by simp [SectorLayout.sectors, hsector, hrest]⟩

variable {layout : SectorLayout}

/-- A layout that fits has its sectors, and they tile it from its first boundary on. -/
theorem Fits.exists_sectors (h : layout.Fits) :
    ∃ sectors, layout.sectors = some sectors ∧
      Tiles (layout.base.toNat + (layout.boundaries.headD 0).toNat) sectors
        (layout.base.toNat + (layout.boundaries.getLastD 0).toNat) := by
  obtain ⟨base, boundaries⟩ := layout
  cases boundaries with
  | nil => exact ⟨[], by simp [sectors], rfl⟩
  | cons a rest =>
    have hstop := h.stop_lt
    simp only [List.getLastD_cons] at hstop ⊢
    obtain ⟨sectors, hsectors⟩ := exists_sectors_cons base h.ascending hstop
    exact ⟨sectors, hsectors, tiles_sectors h.ascending hsectors⟩

theorem Addressable.fits (h : layout.Addressable) : layout.Fits :=
  ⟨h.ascending, Nat.lt_of_le_of_lt h.stop_le (by decide)⟩

theorem Addressable.exists_sectors (h : layout.Addressable) :
    ∃ sectors, layout.sectors = some sectors ∧
      Tiles (layout.base.toNat + (layout.boundaries.headD 0).toNat) sectors
        (layout.base.toNat + (layout.boundaries.getLastD 0).toNat) :=
  h.fits.exists_sectors

theorem Addressable.first_lt (h : layout.Addressable) {s : Sector} (hs : layout.Has s) :
    s.first.toNat < 0x1000000 := by
  obtain ⟨sectors, hsectors, hmem⟩ := hs
  obtain ⟨sectors', hsectors', htiles⟩ := h.exists_sectors
  obtain rfl : sectors = sectors' := Option.some.inj (hsectors.symm.trans hsectors')
  have := htiles.bounded hmem
  have := h.stop_le
  omega

/-- A range lies inside a layout: each of its addresses is in a sector. -/
def Inside (layout : SectorLayout) (first length : Nat) : Prop :=
  ∀ address, first ≤ address → address < first + length →
    ∃ s, layout.Has s ∧ s.Holds address

theorem Inside.end_le (hlayout : layout.Addressable) {first length : Nat}
    (h : layout.Inside first length) (hlength : 0 < length) : first + length ≤ 0x1000000 := by
  obtain ⟨s, ⟨sectors, hsectors, hs⟩, -, hlast⟩ := h (first + length - 1) (by omega) (by omega)
  obtain ⟨sectors', hsectors', htiles⟩ := hlayout.exists_sectors
  obtain rfl : sectors = sectors' := Option.some.inj (hsectors.symm.trans hsectors')
  have := htiles.bounded hs
  have := hlayout.stop_le
  omega

/-- A range between the first address of a layout and its end is inside. -/
theorem Addressable.inside (h : layout.Addressable) {stop : UInt32}
    (hstop : layout.stop = some stop) {first length : Nat}
    (hfirst : layout.base.toNat + (layout.boundaries.headD 0).toNat ≤ first)
    (hlast : first + length ≤ stop.toNat) : layout.Inside first length := by
  intro address hlow hhigh
  obtain ⟨sectors, hsectors, htiles⟩ := h.exists_sectors
  have hend := checkedSum_eq_some hstop
  obtain ⟨s, hs, hholds⟩ := htiles.covered (Nat.le_trans hfirst hlow) (by omega)
  exact ⟨s, ⟨sectors, hsectors, hs⟩, hholds⟩

/-- Capping the end of a range hides no sector: none reaches beyond the last address. -/
theorem meets_cappedSum_iff {s : Sector} {first length : UInt32}
    (hs : s.first.toNat < s.stop.toNat) (hlength : 0 < length.toNat) :
    s.meets first (cappedSum first length) = true ↔ s.Overlaps first.toNat length.toNat := by
  have hcap := toNat_cappedSum first length
  have hstop := s.stop.toNat_lt
  simp only [Sector.meets, Bool.and_eq_true, decide_eq_true_eq, UInt32.lt_iff_toNat_lt, hcap]
  constructor
  · rintro ⟨hbegin, hend⟩
    exact ⟨max s.first.toNat first.toNat, ⟨by omega, by omega⟩, by omega, by omega⟩
  · rintro ⟨address, ⟨hlow, hhigh⟩, hge, hlt⟩
    omega

/-- The sectors chosen for a range come in ascending order where the boundaries do. -/
theorem overlapping_ascending {chosen : List Sector} {first length : UInt32}
    (hasc : layout.boundaries.Pairwise (· < ·))
    (hchosen : layout.overlapping first length = some chosen) :
    chosen.Pairwise (·.first < ·.first) := by
  obtain ⟨base, boundaries⟩ := layout
  unfold overlapping at hchosen
  split at hchosen
  · cases hchosen
    exact List.Pairwise.nil
  obtain ⟨sectors, hsectors, rfl⟩ := Option.map_eq_some_iff.1 hchosen
  refine List.Pairwise.filter _ ?_
  cases boundaries with
  | nil =>
    obtain rfl : [] = sectors := by simpa [SectorLayout.sectors] using hsectors
    exact List.Pairwise.nil
  | cons a rest => exact (tiles_sectors hasc hsectors).ascending

/-- The sectors chosen for a range are those with an address in it. -/
theorem mem_overlapping {chosen : List Sector} {first length : UInt32} {s : Sector}
    (h : layout.Fits) (hchosen : layout.overlapping first length = some chosen) :
    s ∈ chosen ↔ layout.Has s ∧ s.Overlaps first.toNat length.toNat := by
  obtain ⟨sectors, hsectors, htiles⟩ := h.exists_sectors
  have hhas : layout.Has s ↔ s ∈ sectors := by simp [Has, hsectors]
  rw [hhas]
  by_cases hlength : length = 0
  · obtain rfl : chosen = [] := by simpa [overlapping, hlength, eq_comm] using hchosen
    subst hlength
    simp only [List.not_mem_nil, false_iff, not_and]
    rintro - ⟨address, -, hge, hlt⟩
    simp only [UInt32.toNat_zero] at hlt
    omega
  · have hpos : 0 < length.toNat := Nat.pos_of_ne_zero fun h => hlength (UInt32.toNat_inj.1 h)
    obtain rfl : sectors.filter (·.meets first (cappedSum first length)) = chosen := by
      simpa [overlapping, hlength, hsectors] using hchosen
    rw [List.mem_filter]
    exact and_congr_right fun hs => meets_cappedSum_iff (htiles.bounded hs).2.1 hpos

end SectorLayout

end UniversalRemote
