import Mathlib.Data.Nat.Find
import Mathlib.Data.List.Infix
import UniversalRemote.Z.Hid
/-!
# The end marker, packet by packet

The end marker ends at a place if the bytes before that place end with it. A search stops at the
first such place (`markerStop_eq_some_iff`). While bytes arrive packet by packet, the last three of
those before are enough to look at: with them a packet is found to complete the marker exactly where
a search of everything so far would stop (`Carry.markerStop_tail`).
-/

namespace UniversalRemote

def MarkerEnds (bytes : List UInt8) (place : Nat) : Prop :=
  place ≤ bytes.length ∧ endMarker <:+ bytes.take place

def FirstMarkerEnds (bytes : List UInt8) (place : Nat) : Prop :=
  MarkerEnds bytes place ∧ ∀ other, MarkerEnds bytes other → place ≤ other

variable {bytes front rest : List UInt8} {place : Nat} {b : UInt8}

theorem MarkerEnds.four_le (h : MarkerEnds bytes place) : 4 ≤ place := by
  have hle : 4 ≤ (bytes.take place).length := h.2.length_le
  rw [List.length_take] at hle
  omega

theorem markerEnds_four (h : endMarker <+: bytes) : MarkerEnds bytes 4 := by
  have htake : endMarker = bytes.take 4 := List.prefix_iff_eq_take.1 h
  exact ⟨h.length_le, by rw [← htake]⟩

theorem markerEnds_cons (h : ¬ endMarker <+: b :: rest) :
    MarkerEnds (b :: rest) (place + 1) ↔ MarkerEnds rest place := by
  have hsuffix : endMarker <:+ b :: rest.take place ↔ endMarker <:+ rest.take place := by
    rw [List.suffix_cons_iff, or_iff_right]
    intro heq
    rw [heq] at h
    exact h ((List.prefix_cons_inj b).2 (List.take_prefix place rest))
  simp only [MarkerEnds, List.length_cons, List.take_succ_cons, hsuffix, Nat.add_le_add_iff_right]

theorem exists_markerEnds_iff : (∃ place, MarkerEnds bytes place) ↔ endMarker <:+: bytes := by
  constructor
  · rintro ⟨place, _, hends⟩
    exact hends.isInfix.trans (List.take_prefix place bytes).isInfix
  · rintro ⟨front, rest, rfl⟩
    refine ⟨(front ++ endMarker).length, by simp, ?_⟩
    rw [List.take_left]
    exact List.suffix_append front endMarker

theorem exists_firstMarkerEnds (h : endMarker <:+: bytes) :
    ∃ place, FirstMarkerEnds bytes place := by
  classical
  have hex := exists_markerEnds_iff.2 h
  exact ⟨Nat.find hex, Nat.find_spec hex, fun _ => Nat.find_min' hex⟩

theorem FirstMarkerEnds.unique {other : Nat} (h : FirstMarkerEnds bytes place)
    (h' : FirstMarkerEnds bytes other) : place = other :=
  Nat.le_antisymm (h.2 _ h'.1) (h'.2 _ h.1)

theorem firstMarkerEnds_cons (h : ¬ endMarker <+: b :: rest) :
    FirstMarkerEnds (b :: rest) (place + 1) ↔ FirstMarkerEnds rest place := by
  refine and_congr (markerEnds_cons h) ⟨fun hmin other hother => ?_, fun hmin other hother => ?_⟩
  · exact Nat.le_of_succ_le_succ (hmin _ ((markerEnds_cons h).2 hother))
  · have hfour := hother.four_le
    obtain ⟨n, rfl⟩ : ∃ n, other = n + 1 := ⟨other - 1, by omega⟩
    exact Nat.succ_le_succ (hmin _ ((markerEnds_cons h).1 hother))

theorem markerStopFrom_eq_some (h : FirstMarkerEnds bytes place) (skipped : Nat) :
    markerStopFrom skipped bytes = some (skipped + place) := by
  induction bytes generalizing skipped place with
  | nil =>
    have hfour := h.1.four_le
    have hbound : place ≤ 0 := h.1.1
    omega
  | cons b rest ih =>
    rw [markerStopFrom]
    -- a marker at the front ends first; without one, places are counted from the next byte on
    by_cases hmarker : endMarker <+: b :: rest
    · have hfirst : FirstMarkerEnds (b :: rest) 4 :=
        ⟨markerEnds_four hmarker, fun _ hother => hother.four_le⟩
      rw [if_pos (List.isPrefixOf_iff_prefix.2 hmarker), h.unique hfirst]
      rfl
    · have hfour := h.1.four_le
      obtain ⟨n, rfl⟩ : ∃ n, place = n + 1 := ⟨place - 1, by omega⟩
      rw [if_neg (mt List.isPrefixOf_iff_prefix.1 hmarker), ih ((firstMarkerEnds_cons hmarker).1 h)]
      congr 1
      omega

theorem markerStopFrom_eq_none (h : ¬ endMarker <:+: bytes) (skipped : Nat) :
    markerStopFrom skipped bytes = none := by
  induction bytes generalizing skipped with
  | nil => rfl
  | cons b rest ih =>
    have hmarker : ¬ endMarker <+: b :: rest := fun hp => h hp.isInfix
    rw [markerStopFrom, if_neg (mt List.isPrefixOf_iff_prefix.1 hmarker)]
    exact ih (fun hrest => h (hrest.trans (List.suffix_cons b rest).isInfix)) _

theorem markerStop_eq_none_iff : markerStop bytes = none ↔ ¬ endMarker <:+: bytes := by
  refine ⟨fun hnone hmarker => ?_, fun h => markerStopFrom_eq_none h 0⟩
  obtain ⟨place, hfirst⟩ := exists_firstMarkerEnds hmarker
  rw [markerStop, markerStopFrom_eq_some hfirst] at hnone
  cases hnone

theorem markerStop_eq_some_iff : markerStop bytes = some place ↔ FirstMarkerEnds bytes place := by
  constructor
  · intro hstop
    have hmarker : endMarker <:+: bytes := by
      by_contra hnot
      rw [markerStop_eq_none_iff.2 hnot] at hstop
      cases hstop
    obtain ⟨other, hfirst⟩ := exists_firstMarkerEnds hmarker
    rw [markerStop, markerStopFrom_eq_some hfirst, Nat.zero_add] at hstop
    cases hstop
    exact hfirst
  · intro hfirst
    rw [markerStop, markerStopFrom_eq_some hfirst, Nat.zero_add]

theorem markerEnds_append_left (h : place ≤ front.length) :
    MarkerEnds (front ++ rest) place ↔ MarkerEnds front place := by
  rw [MarkerEnds, MarkerEnds, List.take_append_of_le_length h, List.length_append]
  exact and_congr_left fun _ => ⟨fun _ => h, fun _ => Nat.le_add_right_of_le h⟩

theorem not_markerEnds_append (h : ¬ endMarker <:+: front) (hplace : place ≤ front.length) :
    ¬ MarkerEnds (front ++ rest) place :=
  fun hends => h (exists_markerEnds_iff.1 ⟨place, (markerEnds_append_left hplace).1 hends⟩)

theorem FirstMarkerEnds.not_infix (h : FirstMarkerEnds (front ++ rest) place)
    (hfront : front.length < place) : ¬ endMarker <:+: front := by
  intro hmarker
  obtain ⟨other, hother⟩ := exists_markerEnds_iff.2 hmarker
  have hle := h.2 other ((markerEnds_append_left hother.1).2 hother)
  have hbound := hother.1
  omega

theorem FirstMarkerEnds.left (h : FirstMarkerEnds (front ++ rest) place)
    (hplace : place ≤ front.length) : FirstMarkerEnds front place :=
  ⟨(markerEnds_append_left hplace).1 h.1, fun other hother =>
    h.2 other ((markerEnds_append_left hother.1).2 hother)⟩

/-- Whether a marker ends at a place only depends on the four bytes before it. -/
theorem markerEnds_append_right (hplace : 4 ≤ place) :
    MarkerEnds (front ++ bytes) (front.length + place) ↔ MarkerEnds bytes place := by
  have htake : (front ++ bytes).take (front.length + place) = front ++ bytes.take place := by
    rw [List.take_length_add_append]
  simp only [MarkerEnds, List.length_append, htake, Nat.add_le_add_iff_left]
  refine and_congr_right fun hle => ⟨fun h => ?_, fun h => h.trans (List.suffix_append _ _)⟩
  have hlength : endMarker.length ≤ (bytes.take place).length := by
    rw [List.length_take, Nat.min_eq_left hle]
    exact hplace
  exact List.suffix_of_suffix_length_le h (List.suffix_append _ _) hlength

/-! ## What is carried from packet to packet -/

namespace Z.Carry

/-- The end of some bytes, in which a marker may have begun. -/
def tail (past : List UInt8) : Carry :=
  past.drop (past.length - 3)

variable {past chunk : List UInt8}

theorem length_tail : (tail past).length = min past.length 3 := by
  rw [tail, List.length_drop]
  omega

theorem next_tail : (tail past).next chunk = tail (past ++ chunk) := by
  simp only [next, tail, endMarker, List.length_cons, List.length_nil, List.length_append,
    List.length_drop, List.drop_append, List.drop_drop]
  congr 1
  · congr 1
    omega
  · congr 1
    omega

/-- Behind bytes without a marker, the places where a marker ends are seen from the tail of those
bytes on. -/
theorem markerEnds_tail (h : ¬ endMarker <:+: past) :
    MarkerEnds (past ++ chunk) (past.length - (tail past).length + place) ↔
      MarkerEnds (tail past ++ chunk) place := by
  -- a place in the first three bytes of the tail is no end of a marker on either side
  by_cases hplace : 4 ≤ place
  · have hsplit : past ++ chunk = past.take (past.length - 3) ++ (tail past ++ chunk) := by
      rw [tail, ← List.append_assoc, List.take_append_drop]
    have hfront : past.length - (tail past).length = (past.take (past.length - 3)).length := by
      rw [length_tail, List.length_take]
      omega
    rw [hsplit, hfront, markerEnds_append_right hplace]
  · refine iff_of_false (fun hends => ?_) fun hends => hplace hends.four_le
    have hfour := hends.four_le
    rw [length_tail] at hends hfour
    exact not_markerEnds_append h (by omega) hends

theorem firstMarkerEnds_tail (h : ¬ endMarker <:+: past) :
    FirstMarkerEnds (past ++ chunk) (past.length - (tail past).length + place) ↔
      FirstMarkerEnds (tail past ++ chunk) place := by
  refine and_congr (markerEnds_tail h) ⟨fun hmin other hother => ?_, fun hmin other hother => ?_⟩
  · have hle := hmin _ ((markerEnds_tail h).2 hother)
    omega
  · have hpast : past.length < other := by
      by_contra hle
      exact not_markerEnds_append h (by omega) hother
    obtain ⟨n, rfl⟩ : ∃ n, other = past.length - (tail past).length + n :=
      ⟨other - (past.length - (tail past).length), by omega⟩
    have hle := hmin _ ((markerEnds_tail h).1 hother)
    omega

/-- With the tail of the bytes so far, a packet is found to complete the marker where a search of
all bytes stops. -/
theorem markerStop_tail (h : ¬ endMarker <:+: past) (chunk : List UInt8) :
    (tail past).markerStop chunk =
      (UniversalRemote.markerStop (past ++ chunk)).map (· - past.length) := by
  by_cases hmarker : endMarker <:+: past ++ chunk
  · obtain ⟨place, hfirst⟩ := exists_firstMarkerEnds hmarker
    have hpast : past.length < place := by
      by_contra hle
      exact not_markerEnds_append h (by omega) hfirst.1
    obtain ⟨n, rfl⟩ : ∃ n, place = past.length - (tail past).length + n :=
      ⟨place - (past.length - (tail past).length), by omega⟩
    have hwindow := (firstMarkerEnds_tail h).1 hfirst
    rw [markerStop, markerStop_eq_some_iff.2 hfirst, markerStop_eq_some_iff.2 hwindow,
      Option.map_some, Option.map_some]
    have hlength := @length_tail past
    congr 1
    omega
  · have hwindow : ¬ endMarker <:+: tail past ++ chunk := by
      rw [← exists_markerEnds_iff] at hmarker ⊢
      exact fun ⟨place, hends⟩ => hmarker ⟨_, (markerEnds_tail h).2 hends⟩
    rw [markerStop, markerStop_eq_none_iff.2 hmarker, markerStop_eq_none_iff.2 hwindow]
    rfl

end Z.Carry

end UniversalRemote
