import UniversalRemote.Proofs.FileTransfer.Dialogue
import UniversalRemote.Proofs.Infrared.Timeline
import UniversalRemote.Remote
/-!
# Marks and spaces of a learned signal

Where the opening burst took some time, a learned signal has marks and spaces in turn, a mark first, and
its text tags them as such (`learn_alternates`). A burst that took no time is left out of the signal, and
then a space comes first (`learn_space_first`).
-/

namespace UniversalRemote

/-! ## Pairs -/

section Pairs

variable {pairs : List (α × α)}

theorem inTurn_cons (pair : α × α) (rest : List (α × α)) :
    inTurn (pair :: rest) = pair.1 :: pair.2 :: inTurn rest := rfl

theorem take_inTurn (k : Nat) : (inTurn pairs).take (2 * k) = inTurn (pairs.take k) := by
  induction pairs generalizing k with
  | nil => simp [inTurn]
  | cons pair rest ih =>
    cases k with
    | zero => rfl
    | succ k =>
      rw [inTurn_cons, show 2 * (k + 1) = 2 * k + 1 + 1 by omega, List.take_succ_cons,
        List.take_succ_cons, List.take_succ_cons, inTurn_cons, ih]

/-- With one more at either end, the pairs are those of seconds and firsts. -/
theorem cons_inTurn_zip {firsts seconds : List α} (h : firsts.length = seconds.length)
    (before behind : α) :
    before :: (inTurn (firsts.zip seconds) ++ [behind]) =
      inTurn ((before :: seconds).zip (firsts ++ [behind])) := by
  induction firsts generalizing seconds before with
  | nil =>
    rw [List.eq_nil_of_length_eq_zero h.symm]
    rfl
  | cons first firsts ih =>
    obtain ⟨second, seconds, rfl⟩ := List.exists_cons_of_length_eq_add_one h.symm
    exact congrArg (before :: first :: ·) (ih (Nat.succ.inj h) second)

end Pairs

theorem exists_of_map_inTurn {pulses : List UInt32} {pairs : List (Nat × Nat)}
    (h : pulses.map UInt32.toNat = inTurn pairs) :
    ∃ words, pulses = inTurn words ∧ words.map (Prod.map UInt32.toNat UInt32.toNat) = pairs := by
  induction pairs generalizing pulses with
  | nil => exact ⟨[], List.map_eq_nil_iff.1 h, rfl⟩
  | cons pair rest ih =>
    rw [inTurn_cons] at h
    obtain ⟨first, later, rfl, hfirst, hlater⟩ := List.map_eq_cons_iff.1 h
    obtain ⟨second, others, rfl, hsecond, hothers⟩ := List.map_eq_cons_iff.1 hlater
    obtain ⟨words, rfl, rfl⟩ := ih hothers
    exact ⟨(first, second) :: words, rfl, by rw [List.map_cons, Prod.map_apply, hfirst, hsecond]⟩

theorem Stretch.length_spaces (mark : UInt32) (stretches : List Stretch) :
    (Stretch.spaces mark stretches).length = stretches.length := by
  induction stretches generalizing mark with
  | nil => rfl
  | cons s rest ih => exact congrArg (· + 1) (ih s.mark)

namespace Timeline

variable (t : Timeline)

theorem length_spaces : t.spaces.length = t.marks.length := by
  rw [spaces, Stretch.length_spaces, marks, List.length_map]

theorem ne_zero_of_mem_marks {mark : UInt32} (h : mark ∈ t.marks) : mark ≠ 0 := by
  obtain ⟨s, _, rfl⟩ := List.mem_map.1 h
  exact s.mark_ne_zero

/-- Each mark, from the burst on, with the space behind it. -/
def pairs : List (UInt32 × Nat) :=
  (t.burst :: t.marks).zip (t.spaces ++ [t.trailing])

theorem durations_eq : t.durations = inTurn (t.pairs.map fun (mark, space) => (mark.toNat, space)) := by
  have hlength : t.spaces.length = (t.marks.map UInt32.toNat).length := by
    rw [List.length_map, t.length_spaces]
  rw [durations, behindBurst, cons_inTurn_zip hlength, pairs]
  rw [← List.map_cons, List.zip_map_left]
  rfl

theorem map_fst_pairs : t.pairs.map Prod.fst = t.burst :: t.marks := by
  refine List.map_fst_zip ?_
  simp [t.length_spaces]

theorem map_snd_pairs : t.pairs.map Prod.snd = t.spaces ++ [t.trailing] := by
  refine List.map_snd_zip ?_
  simp [t.length_spaces]

end Timeline

namespace Signal

open Exchange Capture

/-- The durations are marks and spaces in turn, a mark first, and the text of the signal says so. -/
structure Alternates (signal : Signal) (pairs : List (UInt32 × UInt32)) : Prop where
  pulses : signal.pulses = inTurn pairs
  marks : ∀ pair ∈ pairs, pair.1 ≠ 0
  text : signal.learnChars = field 'F' signal.frequency ++
    pairs.flatMap fun (mark, space) => field 'P' mark ++ field 'S' space

theorem pulseFields_inTurn (pairs : List (UInt32 × UInt32)) :
    pulseFields (inTurn pairs) =
      pairs.flatMap fun (mark, space) => field 'P' mark ++ field 'S' space := by
  induction pairs with
  | nil => rfl
  | cons pair rest ih => rw [inTurn_cons, pulseFields, ih, List.flatMap_cons]

/-- The marks of a signal are the first five hundred, and its spaces those behind them. -/
theorem exists_alternates {signal : Signal} {t : Timeline} (hburst : t.burst ≠ 0)
    (h : signal.pulses.map UInt32.toNat = t.durations.take 1000) :
    ∃ pairs, signal.Alternates pairs ∧ pairs.map Prod.fst = (t.burst :: t.marks).take 500 ∧
      pairs.map (·.2.toNat) = (t.spaces ++ [t.trailing]).take 500 := by
  rw [t.durations_eq, take_inTurn 500, ← List.map_take] at h
  obtain ⟨pairs, hpulses, hpairs⟩ := exists_of_map_inTurn h
  have hmarks : pairs.map Prod.fst = (t.burst :: t.marks).take 500 := by
    have hfst := congrArg (List.map Prod.fst) hpairs
    rw [List.map_map, List.map_map] at hfst
    rw [← t.map_fst_pairs, ← List.map_take]
    refine (List.map_inj_right fun _ _ => UInt32.toNat_inj.1).1 ?_
    rw [List.map_map, List.map_map]
    exact hfst
  have hspaces : pairs.map (·.2.toNat) = (t.spaces ++ [t.trailing]).take 500 := by
    have hsnd := congrArg (List.map Prod.snd) hpairs
    rw [List.map_map, List.map_map] at hsnd
    rw [← t.map_snd_pairs, ← List.map_take]
    exact hsnd
  refine ⟨pairs, ⟨hpulses, fun pair hpair => ?_, ?_⟩, hmarks, hspaces⟩
  · have hmem : pair.1 ∈ (t.burst :: t.marks).take 500 := hmarks ▸ List.mem_map_of_mem hpair
    rcases List.mem_cons.1 (List.mem_of_mem_take hmem) with heq | hmem
    · rwa [heq]
    · exact t.ne_zero_of_mem_marks hmem
  · rw [learnChars, hpulses, pulseFields_inTurn]

/-- What a capture of fewer words than the opening burst needs ends with. -/
theorem finish_of_few_words {words : List UInt32} {c : Capture} (hlength : words.length < 3)
    (hwords : words.foldlM word {} = some c) : c.finish.pulses = [0] := by
  match words with
  | [] => cases hwords; rfl
  | [_] => cases hwords; rfl
  | [_, _] => cases hwords; rfl
  | _ :: _ :: _ :: _ =>
    simp only [List.length_cons] at hlength
    omega

end Signal

/-! ## Learning -/

namespace Remote

open Exchange Signal

/-- How many answers a remote gives before it captures, and again behind that. -/
def framing (r : Remote) : Nat :=
  if r.family = .mh then 2 else 0

/-- The reports of a call that were received by the capture in it. -/
def capturedBy (r : Remote) (received : List Report) : List Report :=
  (received.drop r.framing).take (received.length - 2 * r.framing)

theorem capturedBy_append (r : Remote) {before behind : List Report} (captured : List Report)
    (hbefore : before.length = r.framing) (hbehind : behind.length = r.framing) :
    r.capturedBy (before ++ captured ++ behind) = captured := by
  rw [capturedBy, List.append_assoc, List.drop_left' hbefore]
  refine List.take_left' ?_
  rw [List.length_append, List.length_append]
  omega

/-- A call that ends with a signal is a capture between what starts it and what stops it. -/
theorem exists_captured_of_yields {r : Remote} {dialogue : List Turn} {signal : Signal}
    (h : r.learn.Yields dialogue signal) :
    ∃ opening captured closing, dialogue = opening ++ (captured ++ closing) ∧
      (Signal.capture 0x90 r.patience).Yields captured signal ∧
      (reportsOf opening).length = r.framing ∧ (reportsOf closing).length = r.framing := by
  unfold learn at h
  split at h
  · rename_i hfamily
    have hframing : r.framing = 0 := by rw [framing, hfamily]; rfl
    obtain ⟨_, opening, _, rfl, hstart, h⟩ := yields_bind.1 h
    obtain ⟨captured, during, _, rfl, hcaptured, h⟩ := yields_bind.1 h
    obtain ⟨_, closing, _, rfl, hstopped, h⟩ := yields_bind.1 h
    obtain ⟨rfl, rfl, _, rfl⟩ := yields_first.1 h
    obtain rfl := yields_send.1 hstart
    obtain rfl := yields_send.1 (yields_attempt_ok.1 hstopped)
    exact ⟨_, during, _, rfl, yields_attempt_ok.1 hcaptured, hframing.symm, hframing.symm⟩
  · rename_i hfamily
    have hframing : r.framing = 2 := by rw [framing, hfamily]; rfl
    obtain ⟨_, opening, _, rfl, hopened, h⟩ := yields_bind.1 h
    obtain ⟨_, acknowledging, _, rfl, hacknowledged, h⟩ := yields_bind.1 h
    obtain ⟨captured, during, _, rfl, hcaptured, h⟩ := yields_bind.1 h
    obtain ⟨stopped, stopping, _, rfl, hstopped, h⟩ := yields_bind.1 h
    obtain ⟨closed, closing, _, rfl, hclosed, h⟩ := yields_bind.1 h
    obtain ⟨_, _, _, rfl, hfirst, h⟩ := yields_bind.1 h
    obtain ⟨rfl, hsignal, _, rfl⟩ := yields_first.1 h
    obtain rfl := Except.ok.inj hsignal
    obtain ⟨rfl, rfl, _, rfl⟩ := yields_first.1 hfirst
    obtain rfl := FileTransfer.yields_converse.1 hopened
    obtain rfl := FileTransfer.yields_converse.1 hacknowledged
    obtain rfl := FileTransfer.yields_converse.1 (yields_attempt_ok.1 hstopped)
    obtain ⟨_, rfl⟩ := FileTransfer.yields_release.1 (yields_attempt_ok.1 hclosed)
    refine ⟨_ ++ _, during, _, (List.append_assoc ..).symm, yields_attempt_ok.1 hcaptured, ?_, ?_⟩
    · exact hframing.symm
    · exact hframing.symm
  · exact absurd h not_yields_throw

/-- A signal that is learned has marks and spaces in turn, a mark first, where the opening burst took some
time: its marks are the burst and the marks behind it, its spaces those between them and the one at the
end. Where the burst took no time, it is left out, and the space behind it comes first. -/
theorem learn_alternates (r : Remote) (device : Device σ) (state : σ) (signal : Signal) :
    let run := r.learn.run.run device state
    let packets := packetsIn 0x90 (r.capturedBy (run.trace.filterMap Step.received?))
    let words := packets.flatMap Capture.carried
    run.result = .ok signal →
    (words.length < 3 → signal.pulses = [0]) ∧
    (3 ≤ words.length → (∃ t : Timeline, t.words = words) ∧ ∀ t : Timeline, t.words = words →
      (t.burst ≠ 0 → ∃ pairs, signal.Alternates pairs ∧
        pairs.map Prod.fst = (t.burst :: t.marks).take 500 ∧
        pairs.map (·.2.toNat) = (t.spaces ++ [t.trailing]).take 500) ∧
      (t.burst = 0 → signal.pulses.map UInt32.toNat = t.behindBurst.take 1000)) := by
  intro run packets words hsignal
  have hyields : r.learn.Yields (turns run.trace) signal := by
    rw [Yields, ← hsignal]
    exact Program.takes_run r.learn.run device state
  obtain ⟨opening, captured, closing, hturns, hcaptured, hopening, hclosing⟩ :=
    exists_captured_of_yields hyields
  obtain ⟨last, hheard, rfl⟩ := exists_heard_of_yields hcaptured
  have hpackets : packets = packetsIn 0x90 (reportsOf captured) := by
    have hreports := capturedBy_append r (reportsOf captured) hopening hclosing
    rw [List.append_assoc, ← reportsOf_append, ← reportsOf_append, ← hturns, reportsOf_turns] at hreports
    exact congrArg (packetsIn 0x90) hreports
  have hwords : words.foldlM Capture.word {} =
      some { last with sequence := Sequence.eightBit 0 0x10 } := by
    have hfold := hheard.foldlM_word
    rw [← hpackets] at hfold
    exact hfold
  constructor
  · intro hlength
    have hfinish := finish_of_few_words hlength hwords
    rwa [Capture.finish_sequence] at hfinish
  · refine fun hlength => ⟨Timeline.exists_words hlength, fun t ht => ?_⟩
    rw [← ht] at hwords
    obtain ⟨hpulses, _⟩ := Capture.finish_of_words hwords
    rw [Capture.finish_sequence] at hpulses
    constructor
    · intro hburst
      rw [if_neg hburst] at hpulses
      exact exists_alternates hburst hpulses
    · intro hburst
      rw [if_pos hburst] at hpulses
      exact hpulses

/-- The burst and two marks behind it. -/
theorem learn_alternates_two_marks :
    let r : Remote := { family := .classic, patience := 5 }
    let script : Script := { reads := [.report (Capture.packetOf 0x00 [0, 26, 1, 600, 26]),
      .report (Capture.packetOf 0x10 [1200, 500]), .report [0xF0]] }
    ∃ signal pairs, (r.learn.run.run Script.device script).result = .ok signal ∧
      signal.Alternates pairs ∧ pairs.map Prod.fst = [26, 26, 500] ∧
      pairs.map (·.2.toNat) = [574, 1174, 1174] := by
  intro r script
  let t : Timeline := ⟨0, 26, 1, [⟨[], 600, 26, by decide⟩, ⟨[], 1200, 500, by decide⟩], [], none⟩
  obtain ⟨signal, hsignal⟩ : ∃ signal, (r.learn.run.run Script.device script).result = .ok signal :=
    ⟨_, rfl⟩
  have hread := ((learn_alternates r Script.device script signal hsignal).2 (by decide)).2 t rfl
  obtain ⟨pairs, halternates, hmarks, hspaces⟩ := hread.1 (by decide)
  exact ⟨signal, pairs, hsignal, halternates, hmarks, hspaces⟩

/-- A burst that took no time, and one mark behind it: the space before that mark comes first, and the text
has it for a mark. -/
theorem learn_space_first :
    let r : Remote := { family := .classic, patience := 5 }
    let packet := Capture.packetOf 0x00 [0, 0, 0, 600, 26]
    let run := r.learn.run.run Script.device { reads := [.report packet, .report [0xF0]] }
    let t : Timeline := ⟨0, 0, 0, [⟨[], 600, 26, by decide⟩], [], none⟩
    let signal : Signal := ⟨0, [600, 26, 600]⟩
    run.result = .ok signal ∧ t.words = Capture.carried packet ∧ t.marks = [26] ∧
      t.spaces = [600] ∧
      signal.learnChars = field 'F' 0 ++ (field 'P' 600 ++ field 'S' 26 ++ field 'P' 600) ∧
      ∀ pairs, pairs.map Prod.fst = t.marks → ¬ signal.Alternates pairs := by
  refine ⟨rfl, rfl, rfl, rfl, rfl, fun pairs hmarks halternates => ?_⟩
  obtain ⟨pair, rfl, _⟩ := List.map_eq_singleton_iff.1 hmarks
  have hpulses : [600, 26, 600] = [pair.1, pair.2] := halternates.pulses
  simp at hpulses

end Remote

end UniversalRemote
