import UniversalRemote.Proofs.Flash.Tiling
/-!
# The sectors of a range

The sectors that hold an address of a range stand next to one another in the table of a layout
(`Tiles.exists_run`), and they are the sectors that are chosen for the range (`exists_selected`).
-/

namespace UniversalRemote

namespace Tiles

/-- Of sectors in a row, those that reach into a range are a row themselves. -/
theorem exists_run {sectors : List Sector} {start stop first last : Nat} {p : Sector → Bool}
    (h : Tiles start sectors stop)
    (hp : ∀ s ∈ sectors, p s = true ↔ s.first.toNat < last ∧ first < s.stop.toNat) :
    ∃ before behind, sectors = before ++ sectors.filter p ++ behind ∧
      ∀ s ∈ before, s.stop.toNat ≤ first := by
  induction sectors generalizing start with
  | nil => exact ⟨[], [], rfl, nofun⟩
  | cons s rest ih =>
    obtain ⟨-, hlt, hrest⟩ := h
    rw [List.forall_mem_cons] at hp
    have hlater : ∀ t ∈ rest, s.stop.toNat ≤ t.first.toNat ∧ t.first.toNat < t.stop.toNat :=
      fun t ht => ⟨(hrest.bounded ht).1, (hrest.bounded ht).2.1⟩
    obtain ⟨before, behind, hsplit, hbefore⟩ := ih hrest hp.2
    by_cases hlow : s.stop.toNat ≤ first
    · have hout : ¬ p s = true := by rw [hp.1]; omega
      refine ⟨s :: before, behind, ?_, List.forall_mem_cons.2 ⟨hlow, hbefore⟩⟩
      rw [List.filter_cons_of_neg hout, List.cons_append, List.cons_append, ← hsplit]
    by_cases hhigh : last ≤ s.first.toNat
    · have hnone : (s :: rest).filter p = [] := by
        refine List.filter_eq_nil_iff.2 (List.forall_mem_cons.2 ⟨?_, fun t ht => ?_⟩)
        · rw [hp.1]
          omega
        · have := hlater t ht
          rw [hp.2 t ht]
          omega
      refine ⟨[], s :: rest, ?_, nofun⟩
      rw [hnone]
      rfl
    · have hin : p s = true := by rw [hp.1]; omega
      -- behind a sector that reaches into the range, none ends in front of it
      obtain rfl : before = [] := by
        refine List.eq_nil_iff_forall_not_mem.2 fun t ht => ?_
        have hmem : t ∈ rest := by
          rw [hsplit]
          simp [ht]
        have := hlater t hmem
        have := hbefore t ht
        omega
      refine ⟨[], behind, ?_, nofun⟩
      rw [List.filter_cons_of_pos hin, List.nil_append, List.cons_append]
      rw [List.nil_append] at hsplit
      rw [← hsplit]

end Tiles

namespace SectorLayout

variable {layout : SectorLayout}

/-- The sectors of a layout lie between consecutive boundaries. -/
theorem bounds_sectors {sectors : List Sector} (h : layout.sectors = some sectors) :
    sectors.map (fun s => (s.first.toNat, s.stop.toNat)) =
      (layout.boundaries.zip layout.boundaries.tail).map fun b =>
        (layout.base.toNat + b.1.toNat, layout.base.toNat + b.2.toNat) := by
  unfold SectorLayout.sectors at h
  generalize layout.boundaries.zip layout.boundaries.tail = pairs at h ⊢
  induction pairs generalizing sectors with
  | nil =>
    obtain rfl : [] = sectors := by simpa using h
    rfl
  | cons pair pairs ih =>
    rw [List.mapM_cons] at h
    obtain ⟨s, hs, h⟩ := Option.bind_eq_some_iff.1 h
    obtain ⟨rest, hrest, h⟩ := Option.bind_eq_some_iff.1 h
    obtain rfl : s :: rest = sectors := by simpa using h
    obtain ⟨first, hfirst, hs⟩ := Option.bind_eq_some_iff.1 hs
    obtain ⟨stop, hstop, hs⟩ := Option.bind_eq_some_iff.1 hs
    obtain rfl : ⟨first, stop⟩ = s := by simpa using hs
    rw [List.map_cons, List.map_cons, ih hrest, checkedSum_eq_some hfirst, checkedSum_eq_some hstop]

/-- The sectors chosen for a range, among all sectors of a layout. -/
structure Selected (layout : SectorLayout) (first length : UInt32)
    (before chosen behind : List Sector) : Prop where
  sectors : layout.sectors = some (before ++ chosen ++ behind)
  bounds : (before ++ chosen ++ behind).map (fun s => (s.first.toNat, s.stop.toNat)) =
    (layout.boundaries.zip layout.boundaries.tail).map fun b =>
      (layout.base.toNat + b.1.toNat, layout.base.toNat + b.2.toNat)
  overlapping : layout.overlapping first length = some chosen
  exact : ∀ s ∈ before ++ chosen ++ behind,
    s ∈ chosen ↔ s.Overlaps first.toNat length.toNat
  ascending : chosen.Pairwise (·.first < ·.first)
  /-- No address of the range that lies inside the layout is left out. -/
  covers : ∀ address, first.toNat ≤ address → address < first.toNat + length.toNat →
    layout.base.toNat + (layout.boundaries.headD 0).toNat ≤ address →
    address < layout.base.toNat + (layout.boundaries.getLastD 0).toNat →
    ∃ s ∈ chosen, s.Holds address
  empty : length = 0 → chosen = []

theorem Fits.exists_run (h : layout.Fits) (first length : UInt32) {sectors : List Sector}
    (hsectors : layout.sectors = some sectors) :
    ∃ before chosen behind, sectors = before ++ chosen ++ behind ∧
      layout.overlapping first length = some chosen := by
  obtain ⟨sectors', hsectors', htiles⟩ := h.exists_sectors
  obtain rfl : sectors = sectors' := Option.some.inj (hsectors.symm.trans hsectors')
  by_cases hlength : length = 0
  · exact ⟨sectors, [], [], by simp, if_pos hlength⟩
  · have hmeets : ∀ s ∈ sectors, s.meets first (cappedSum first length) = true ↔
        s.first.toNat < (cappedSum first length).toNat ∧ first.toNat < s.stop.toNat := by
      intro s _
      simp only [Sector.meets, Bool.and_eq_true, decide_eq_true_eq, UInt32.lt_iff_toNat_lt]
    obtain ⟨before, behind, hsplit, -⟩ := htiles.exists_run hmeets
    refine ⟨before, _, behind, hsplit, ?_⟩
    rw [overlapping, if_neg hlength, hsectors]
    rfl

/-- In a table of ascending boundaries whose addresses fit their machine word, a range chooses the
sectors that hold one of its addresses, also where it reaches beyond the last address there is. They
come in ascending order and without a gap, and hold all of the range that lies inside the layout. -/
theorem exists_selected (h : layout.Fits) (first length : UInt32) :
    ∃ before chosen behind, layout.Selected first length before chosen behind := by
  obtain ⟨sectors, hsectors, htiles⟩ := h.exists_sectors
  obtain ⟨before, chosen, behind, rfl, hchosen⟩ := h.exists_run first length hsectors
  have hmem (s : Sector) := mem_overlapping (s := s) h hchosen
  have hhas (s : Sector) (hs : s ∈ before ++ chosen ++ behind) : layout.Has s := ⟨_, hsectors, hs⟩
  refine ⟨before, chosen, behind, hsectors, bounds_sectors hsectors, hchosen, fun s hs => ?_,
    overlapping_ascending h.ascending hchosen, fun address hfirst hlast hlow hhigh => ?_,
    fun hlength => ?_⟩
  · rw [hmem, and_iff_right (hhas s hs)]
  · obtain ⟨s, hs, hholds⟩ := htiles.covered hlow hhigh
    exact ⟨s, (hmem s).2 ⟨hhas s hs, address, hholds, hfirst, hlast⟩, hholds⟩
  · rw [overlapping, if_pos hlength] at hchosen
    exact (Option.some.inj hchosen).symm

/-- The last address there is: a range that reaches beyond it chooses the sectors up to the end. -/
theorem exists_selected_behind_last_address :
    let layout : SectorLayout := ⟨0xFFFF0000, [0, 0x4000, 0x8000, 0xFFFF]⟩
    layout.Fits ∧ layout.overlapping 0xFFFF7FFF 0xFFFFFFFF =
        some [⟨0xFFFF4000, 0xFFFF8000⟩, ⟨0xFFFF8000, 0xFFFFFFFF⟩] ∧
      ∃ before chosen behind, layout.Selected 0xFFFF7FFF 0xFFFFFFFF before chosen behind := by
  intro layout
  have hfits : layout.Fits := ⟨by decide, by decide⟩
  exact ⟨hfits, by decide, exists_selected hfits 0xFFFF7FFF 0xFFFFFFFF⟩

end SectorLayout

end UniversalRemote
