import UniversalRemote.Proofs.Infrared.Listening
/-!
# The durations that the words of a capture stand for

Behind the three words of the opening burst, words come in pairs: a total and the mark behind it. A pair
without a mark lengthens the space, so that a space goes with as many totals as come before the next mark
(`Stretch`). The last space is that of the totals behind the last mark, or, where there are none, the
space before it once more. A signal is this reading of the words, whatever the packets that brought them
(`capture_timeline`).
-/

namespace UniversalRemote

/-- A space and the mark that ends it. The total of that mark comes behind others that have no mark. -/
structure Stretch where
  unmarked : List UInt32
  total : UInt32
  mark : UInt32
  mark_ne_zero : mark ≠ 0
  deriving DecidableEq, Repr

def unmarkedWords (totals : List UInt32) : List UInt32 :=
  totals.flatMap fun total => [total, 0]

/-- The space that totals make behind a mark: the first of them, which counts from where the mark began,
and all others added to that. -/
def spaceBehind (mark : UInt32) : List UInt32 → Nat
  | [] => 0
  | total :: rest => rest.foldl (fun space other => space + other.toNat) (total.toNat - mark.toNat)

/-- The first and the second of each pair in turn. -/
def inTurn (pairs : List (α × α)) : List α :=
  pairs.flatMap fun (first, second) => [first, second]

namespace Stretch

def totals (s : Stretch) : List UInt32 :=
  s.unmarked ++ [s.total]

def words (s : Stretch) : List UInt32 :=
  unmarkedWords s.unmarked ++ [s.total, s.mark]

def spaces : UInt32 → List Stretch → List Nat
  | _, [] => []
  | mark, s :: rest => spaceBehind mark s.totals :: spaces s.mark rest

end Stretch

/-- A reading of the words of a capture. -/
structure Timeline where
  lead : UInt32
  /-- The opening mark. -/
  burst : UInt32
  /-- The number of pulses in the opening mark. -/
  count : UInt32
  stretches : List Stretch
  /-- The totals of pairs behind the last mark. -/
  unmarked : List UInt32
  /-- The total at the end that is in no pair. -/
  unpaired : Option UInt32
  deriving DecidableEq, Repr

namespace Timeline

variable (t : Timeline)

def words : List UInt32 :=
  [t.lead, t.burst, t.count] ++
    (t.stretches.flatMap Stretch.words ++ (unmarkedWords t.unmarked ++ t.unpaired.toList))

def marks : List UInt32 :=
  t.stretches.map Stretch.mark

def spaces : List Nat :=
  Stretch.spaces t.burst t.stretches

def trailing : Nat :=
  if t.unmarked ++ t.unpaired.toList = [] then t.spaces.getLast?.getD 0
  else spaceBehind (t.marks.getLast?.getD t.burst) (t.unmarked ++ t.unpaired.toList)

/-- What comes behind the burst: a space before each mark and one at the end. -/
def behindBurst : List Nat :=
  inTurn (t.spaces.zip (t.marks.map UInt32.toNat)) ++ [t.trailing]

def durations : List Nat :=
  t.burst.toNat :: t.behindBurst

/-- The signal of the durations, as far as it has room for them. Its frequency is that of so many pulses
in a burst of so many microseconds. -/
def signal : Signal :=
  ⟨UInt32.ofNat (t.count.toNat * 1000000 / t.burst.toNat), (t.durations.take 1000).map UInt32.ofNat⟩

end Timeline

/-- Words that come in pairs, and perhaps one more, are stretches and totals behind the last mark. -/
theorem exists_stretches : ∀ words : List UInt32,
    ∃ (stretches : List Stretch) (unmarked : List UInt32) (unpaired : Option UInt32),
      words = stretches.flatMap Stretch.words ++ (unmarkedWords unmarked ++ unpaired.toList)
  | [] => ⟨[], [], none, rfl⟩
  | [total] => ⟨[], [], some total, rfl⟩
  | total :: mark :: rest => by
    obtain ⟨stretches, unmarked, unpaired, hrest⟩ := exists_stretches rest
    by_cases hmark : mark = 0
    · cases stretches with
      | nil => exact ⟨[], total :: unmarked, unpaired, by rw [hmark, hrest]; rfl⟩
      | cons s later =>
        exact ⟨{ s with unmarked := total :: s.unmarked } :: later, unmarked, unpaired,
          by rw [hmark, hrest]; rfl⟩
    · exact ⟨⟨[], total, mark, hmark⟩ :: stretches, unmarked, unpaired, by rw [hrest]; rfl⟩

/-- All words of which the first three are there can be read. -/
theorem Timeline.exists_words {words : List UInt32} (h : 3 ≤ words.length) :
    ∃ t : Timeline, t.words = words := by
  obtain ⟨lead, burst, count, rest, rfl⟩ : ∃ lead burst count rest,
      words = lead :: burst :: count :: rest := by
    match words with
    | lead :: burst :: count :: rest => exact ⟨lead, burst, count, rest, rfl⟩
  obtain ⟨stretches, unmarked, unpaired, rfl⟩ := exists_stretches rest
  exact ⟨⟨lead, burst, count, stretches, unmarked, unpaired⟩, rfl⟩

theorem spaceBehind_append_singleton (mark total : UInt32) {totals : List UInt32}
    (h : totals ≠ []) :
    spaceBehind mark (totals ++ [total]) = spaceBehind mark totals + total.toNat := by
  cases totals with
  | nil => exact absurd rfl h
  | cons first rest =>
    rw [List.cons_append, spaceBehind, spaceBehind, List.foldl_append]
    rfl

namespace Capture

/-! ## Words -/

/-- The durations recorded so far, oldest first. -/
def recorded (c : Capture) : List Nat :=
  c.pulses.reverse.map UInt32.toNat

theorem recorded_push {c : Capture} {durations : List Nat}
    (h : c.recorded = durations.take maxPulses) (t : UInt32) :
    (c.push t).recorded = (durations ++ [t.toNat]).take maxPulses := by
  have hlength : c.pulses.length = min maxPulses durations.length := by
    have := congrArg List.length h
    rwa [recorded, List.length_map, List.length_reverse, List.length_take] at this
  unfold push
  split
  · rename_i hroom
    have hall : durations.take maxPulses = durations := List.take_of_length_le (by omega)
    rw [List.take_of_length_le (by rw [List.length_append, List.length_singleton]; omega)]
    rw [hall] at h
    rw [recorded, List.reverse_cons, List.map_append, ← recorded, h]
    rfl
  · rw [List.take_append_of_le_length (by omega), h]

/-- A total behind a mark starts a space, one behind no mark lengthens it. -/
theorem word_total {c : Capture} (hplace : 3 ≤ c.words) (hodd : c.words % 2 = 1) (t : UInt32) :
    c.word t =
      if c.mark = 0 then
        (checkedSum c.gap t).map fun gap => { c with gap, words := c.words + 1 }
      else some { c with gap := flooredDifference t c.mark, words := c.words + 1 } := by
  unfold word place
  split <;> first | omega | skip
  rw [if_pos hodd]
  split
  · rw [Option.map_map]
    rfl
  · rfl

theorem word_mark {c : Capture} (hplace : 3 ≤ c.words) (heven : c.words % 2 = 0) (t : UInt32) :
    c.word t =
      if t = 0 then some { c with mark := 0, words := c.words + 1 }
      else some { (({ c with mark := t } : Capture).push c.gap).push t with words := c.words + 1 } := by
  unfold word place
  split <;> first | omega | skip
  rw [if_neg (by omega)]
  split
  · rename_i hzero
    rw [hzero]
    rfl
  · rfl

/-- Where a capture stands between two pairs: what the last mark was, which totals came behind it, what
the space before it was, and what has been recorded. -/
structure Stands (c : Capture) (mark : UInt32) (stale : Nat) (totals : List UInt32)
    (frequency : UInt32) (durations : List Nat) : Prop where
  place : 3 ≤ c.words
  odd : c.words % 2 = 1
  mark_eq : c.mark = if totals = [] then mark else 0
  gap_eq : c.gap.toNat = if totals = [] then stale else spaceBehind mark totals
  /-- Without a burst nothing precedes the first space. -/
  fresh : mark = 0 → stale = 0
  frequency_eq : c.frequency = frequency
  recorded_eq : c.recorded = durations.take maxPulses

namespace Stands

variable {c next : Capture} {mark : UInt32} {stale : Nat} {totals : List UInt32} {frequency : UInt32}
  {durations : List Nat}

theorem total (h : c.Stands mark stale totals frequency durations) {t : UInt32}
    (hword : c.word t = some next) :
    next.words = c.words + 1 ∧ next.gap.toNat = spaceBehind mark (totals ++ [t]) ∧
      next.frequency = frequency ∧ next.recorded = durations.take maxPulses := by
  rw [word_total h.place h.odd] at hword
  have hmark := h.mark_eq
  have hgap := h.gap_eq
  by_cases htotals : totals = []
  · subst htotals
    rw [if_pos rfl] at hmark hgap
    have hspace : spaceBehind mark ([] ++ [t]) = t.toNat - mark.toNat := rfl
    rw [hspace]
    split at hword
    · -- only without a burst: then the total is added to no space at all
      rename_i hzero
      obtain ⟨gap, hsum, rfl⟩ := Option.map_eq_some_iff.1 hword
      have hvalue := checkedSum_eq_some hsum
      have hstale := h.fresh (hmark ▸ hzero)
      have hnone : mark.toNat = 0 := by rw [← hmark, hzero]; rfl
      exact ⟨rfl, by dsimp only; omega, h.frequency_eq, h.recorded_eq⟩
    · cases hword
      exact ⟨rfl, by rw [← hmark]; exact toNat_flooredDifference t c.mark, h.frequency_eq, h.recorded_eq⟩
  · rw [if_neg htotals] at hmark hgap
    rw [if_pos hmark] at hword
    obtain ⟨gap, hsum, rfl⟩ := Option.map_eq_some_iff.1 hword
    have hvalue := checkedSum_eq_some hsum
    rw [spaceBehind_append_singleton mark t htotals]
    exact ⟨rfl, by dsimp only; omega, h.frequency_eq, h.recorded_eq⟩

/-- What there is between the two words of a pair, and what the second one makes of it. -/
theorem exists_between (h : c.Stands mark stale totals frequency durations) {t newMark : UInt32}
    (hwords : [t, newMark].foldlM word c = some next) :
    ∃ between : Capture, between.words = c.words + 1 ∧
      between.gap.toNat = spaceBehind mark (totals ++ [t]) ∧ between.frequency = frequency ∧
      between.recorded = durations.take maxPulses ∧
      next = if newMark = 0 then { between with mark := 0, words := between.words + 1 }
        else { (({ between with mark := newMark } : Capture).push between.gap).push newMark with
          words := between.words + 1 } := by
  obtain ⟨between, htotal, hmark⟩ := Option.bind_eq_some_iff.1 hwords
  obtain ⟨hplace, hgap, hfrequency, hrecorded⟩ := h.total htotal
  have hthree := h.place
  have hodd := h.odd
  have hmark : between.word newMark = some next := by simpa using hmark
  rw [word_mark (by omega) (by omega)] at hmark
  refine ⟨between, hplace, hgap, hfrequency, hrecorded, ?_⟩
  split at hmark <;> rename_i hzero
  · rw [if_pos hzero]
    exact (Option.some.inj hmark).symm
  · rw [if_neg hzero]
    exact (Option.some.inj hmark).symm

/-- A pair without a mark adds its total. -/
theorem unmarked (h : c.Stands mark stale totals frequency durations) {t : UInt32}
    (hwords : [t, 0].foldlM word c = some next) :
    next.Stands mark stale (totals ++ [t]) frequency durations := by
  obtain ⟨between, hplace, hgap, hfrequency, hrecorded, hnext⟩ := h.exists_between hwords
  rw [if_pos rfl] at hnext
  subst hnext
  have hthree := h.place
  have hodd := h.odd
  have hnonempty : totals ++ [t] ≠ [] := List.append_ne_nil_of_right_ne_nil _ (List.cons_ne_nil _ _)
  exact {
    place := by dsimp only; omega
    odd := by dsimp only; omega
    mark_eq := (if_neg hnonempty).symm
    gap_eq := by rw [if_neg hnonempty]; exact hgap
    fresh := h.fresh
    frequency_eq := hfrequency
    recorded_eq := hrecorded }

/-- A pair with a mark records the space before the mark, and the mark. -/
theorem marked (h : c.Stands mark stale totals frequency durations) {t newMark : UInt32}
    (hne : newMark ≠ 0) (hwords : [t, newMark].foldlM word c = some next) :
    next.Stands newMark (spaceBehind mark (totals ++ [t])) [] frequency
      (durations ++ [spaceBehind mark (totals ++ [t]), newMark.toNat]) := by
  obtain ⟨between, hplace, hgap, hfrequency, hrecorded, hnext⟩ := h.exists_between hwords
  rw [if_neg hne] at hnext
  subst hnext
  have hthree := h.place
  have hodd := h.odd
  have hspace := recorded_push (c := { between with mark := newMark }) hrecorded between.gap
  have hboth := recorded_push hspace newMark
  rw [hgap, List.append_assoc] at hboth
  exact {
    place := by dsimp only; omega
    odd := by dsimp only; omega
    mark_eq := by rw [if_pos rfl]; simp only [mark_push]
    gap_eq := by rw [if_pos rfl, ← hgap]; simp only [gap_push]
    fresh := fun hzero => absurd hzero hne
    frequency_eq := by rw [← hfrequency]; simp only [frequency_push]
    recorded_eq := hboth }

theorem unmarked_pairs (h : c.Stands mark stale totals frequency durations) {more : List UInt32}
    (hwords : (unmarkedWords more).foldlM word c = some next) :
    next.Stands mark stale (totals ++ more) frequency durations := by
  induction more generalizing c totals with
  | nil =>
    cases hwords
    rwa [List.append_nil]
  | cons t more ih =>
    rw [unmarkedWords, List.flatMap_cons, List.foldlM_append] at hwords
    obtain ⟨between, hfirst, hrest⟩ := Option.bind_eq_some_iff.1 hwords
    have hlast := ih (h.unmarked hfirst) hrest
    rwa [List.append_assoc] at hlast

theorem stretch (h : c.Stands mark stale [] frequency durations) {s : Stretch}
    (hwords : s.words.foldlM word c = some next) :
    next.Stands s.mark (spaceBehind mark s.totals) [] frequency
      (durations ++ [spaceBehind mark s.totals, s.mark.toNat]) := by
  rw [Stretch.words, List.foldlM_append] at hwords
  obtain ⟨between, hunmarked, hpair⟩ := Option.bind_eq_some_iff.1 hwords
  exact (h.unmarked_pairs hunmarked).marked s.mark_ne_zero hpair

theorem stretches (h : c.Stands mark stale [] frequency durations) {all : List Stretch}
    (hwords : (all.flatMap Stretch.words).foldlM word c = some next) :
    next.Stands ((all.map Stretch.mark).getLast?.getD mark)
      ((Stretch.spaces mark all).getLast?.getD stale) [] frequency
      (durations ++
        inTurn ((Stretch.spaces mark all).zip ((all.map Stretch.mark).map UInt32.toNat))) := by
  induction all generalizing c mark stale durations with
  | nil =>
    cases hwords
    rwa [List.map_nil, List.map_nil, List.zip_nil_right, inTurn, List.flatMap_nil, List.append_nil]
  | cons s rest ih =>
    rw [List.flatMap_cons, List.foldlM_append] at hwords
    obtain ⟨between, hfirst, hrest⟩ := Option.bind_eq_some_iff.1 hwords
    have hlast := ih (h.stretch hfirst) hrest
    rw [List.append_assoc] at hlast
    rw [List.map_cons, List.map_cons, Stretch.spaces, List.getLast?_cons, List.getLast?_cons,
      List.zip_cons_cons, inTurn, List.flatMap_cons]
    exact hlast

/-- The space that is still open at the end is closed; where there is none, the one before comes again. -/
theorem finish (h : c.Stands mark stale totals frequency durations) {unpaired : Option UInt32}
    (hwords : unpaired.toList.foldlM word c = some next) :
    next.finish.pulses.map UInt32.toNat =
      (durations ++ [if totals ++ unpaired.toList = [] then stale
        else spaceBehind mark (totals ++ unpaired.toList)]).take maxPulses ∧
    next.finish.frequency = frequency := by
  cases unpaired with
  | none =>
    cases hwords
    rw [Option.toList_none, List.append_nil, ← h.gap_eq]
    exact ⟨recorded_push h.recorded_eq c.gap, h.frequency_eq⟩
  | some t =>
    have hword : c.word t = some next := by simpa using hwords
    obtain ⟨_, hgap, hfrequency, hrecorded⟩ := h.total hword
    have hnonempty : totals ++ [t] ≠ [] := List.append_ne_nil_of_right_ne_nil _ (List.cons_ne_nil _ _)
    rw [Option.toList_some, if_neg hnonempty, ← hgap]
    exact ⟨recorded_push hrecorded next.gap, hfrequency⟩

end Stands

/-- The three words of the opening burst. -/
theorem stands_opening (lead burst count : UInt32) {c : Capture}
    (hwords : [lead, burst, count].foldlM word {} = some c) :
    c.Stands burst 0 [] (if burst = 0 then 0 else carrier count burst)
      (if burst = 0 then [] else [burst.toNat]) := by
  by_cases hburst : burst = 0
  · have hopening : [lead, burst, count].foldlM word {} = some { words := 3, mark := burst } := by
      simp [word, place, hburst]
    rw [hopening] at hwords
    cases hwords
    rw [if_pos hburst, if_pos hburst]
    exact ⟨Nat.le_refl 3, (rfl : 3 % 2 = 1), rfl, rfl, fun _ => rfl, rfl, rfl⟩
  · have hopening : [lead, burst, count].foldlM word {} = some
        { words := 3, mark := burst, frequency := carrier count burst, pulses := [burst] } := by
      simp [word, place, hburst, push, maxPulses]
    rw [hopening] at hwords
    cases hwords
    rw [if_neg hburst, if_neg hburst]
    exact ⟨Nat.le_refl 3, (rfl : 3 % 2 = 1), rfl, rfl, fun _ => rfl, rfl, rfl⟩

/-- The signal that a capture of these words ends with. Where the burst took no time, it is left out. -/
theorem finish_of_words {t : Timeline} {c : Capture} (hwords : t.words.foldlM word {} = some c) :
    c.finish.pulses.map UInt32.toNat =
      ((if t.burst = 0 then [] else [t.burst.toNat]) ++ t.behindBurst).take maxPulses ∧
    c.finish.frequency = if t.burst = 0 then 0 else carrier t.count t.burst := by
  rw [Timeline.words, List.foldlM_append] at hwords
  obtain ⟨opened, hopening, hwords⟩ := Option.bind_eq_some_iff.1 hwords
  rw [List.foldlM_append] at hwords
  obtain ⟨between, hstretches, hwords⟩ := Option.bind_eq_some_iff.1 hwords
  rw [List.foldlM_append] at hwords
  obtain ⟨paired, hunmarked, hunpaired⟩ := Option.bind_eq_some_iff.1 hwords
  have hstands := ((stands_opening _ _ _ hopening).stretches hstretches).unmarked_pairs hunmarked
  rw [Timeline.behindBurst, Timeline.trailing, ← List.append_assoc]
  exact hstands.finish hunpaired

theorem map_ofNat_toNat (ts : List UInt32) : (ts.map UInt32.toNat).map UInt32.ofNat = ts := by
  rw [List.map_map]
  exact List.map_id'' (fun _ => UInt32.ofNat_toNat) ts

end Capture

namespace Signal

open Exchange Capture

/-- The words of the packets that a capture takes in are all that its signal is made of: it is the signal
of any reading of them, and all durations fit their machine words. -/
theorem capture_timeline (code : UInt8) (patience : Nat) (device : Device σ) (state : σ)
    (signal : Signal) :
    let run := (capture code patience).run.run device state
    let packets := packetsIn code (run.trace.filterMap Step.received?)
    let words := packets.flatMap carried
    run.result = .ok signal → 3 ≤ words.length → words.getD 1 0 ≠ 0 →
    (∀ packet ∈ packets, (carried packet).length ≤ 30) ∧ (∃ t : Timeline, t.words = words) ∧
      ∀ t : Timeline, t.words = words →
        signal = t.signal ∧ signal.pulses.map UInt32.toNat = t.durations.take 1000 := by
  intro run packets words hsignal hlength hburst
  have hyields : (capture code patience).Yields (turns run.trace) signal := by
    rw [Yields, ← hsignal]
    exact Program.takes_run (capture code patience).run device state
  obtain ⟨last, hheard, rfl⟩ := exists_heard_of_yields hyields
  rw [reportsOf_turns] at hheard
  refine ⟨fun packet hpacket => (hheard.sized packet hpacket).length_carried_le,
    Timeline.exists_words hlength, fun t ht => ?_⟩
  have hwords : t.words.foldlM word {} = some { last with sequence := Sequence.eightBit 0 0x10 } := by
    rw [ht]
    exact hheard.foldlM_word
  have hburst : t.burst ≠ 0 := by
    rw [← ht] at hburst
    exact hburst
  obtain ⟨hpulses, hfrequency⟩ := finish_of_words hwords
  rw [finish_sequence, if_neg hburst] at hpulses hfrequency
  refine ⟨?_, hpulses⟩
  calc last.finish = ⟨last.finish.frequency, (last.finish.pulses.map UInt32.toNat).map .ofNat⟩ := by
        rw [map_ofNat_toNat]
    _ = t.signal := by
        rw [hpulses, hfrequency]
        rfl

/-- The two packets of a signal of two marks behind the burst. -/
theorem capture_timeline_two_marks :
    let script : Script := { reads := [.report (packetOf 0x00 [0, 26, 1, 600, 26]),
      .report (packetOf 0x10 [1200, 500]), .report [0xF0]] }
    let run := (capture 0x90 5).run.run Script.device script
    let t : Timeline :=
      ⟨0, 26, 1, [⟨[], 600, 26, by decide⟩, ⟨[], 1200, 500, by decide⟩], [], none⟩
    run.result = .ok t.signal ∧ t.durations = [26, 574, 26, 1174, 500, 1174] := by
  intro script run t
  obtain ⟨signal, hsignal⟩ : ∃ signal, run.result = .ok signal := ⟨_, rfl⟩
  have hread := (capture_timeline 0x90 5 Script.device script signal hsignal (by decide) (by decide)).2.2
  obtain ⟨hread, _⟩ := hread t rfl
  exact ⟨hread ▸ hsignal, rfl⟩

end Signal

end UniversalRemote
