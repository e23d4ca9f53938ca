import UniversalRemote.Proofs.Infrared.Listening
import UniversalRemote.Proofs.Link.Access
/-!
# A capture within its bounds

A capture reads on only while its space is short, so that no packet brings the space near the end of
its machine word, and it records no more than a signal has room for (`capture_within_bounds`). The
words of a packet are looked up by their places, where a place that is not there, a quotient by zero
and a sum that leaves its word are absent: none is (`capture?_eq`).
-/

namespace UniversalRemote

namespace Capture

/-! ## Places -/

def number? (c : Capture) (actual : UInt8) : Option (Except ProtocolError Capture) :=
  let due := c.sequence.current
  if actual = due then (c.sequence.skip? 0x10).map fun sequence => .ok { c with sequence }
  else if actual = 0x1F ∧ due = 0x10 then
    ((c.sequence.skip? 0x0F).bind (·.skip? 0x10)).map fun sequence => .ok { c with sequence }
  else some (.error (.sequenceMismatch due actual))

/-- The carrier frequency of a burst, unless the burst took no time or the product leaves 64 bits. -/
def carrier? (count duration : UInt32) : Option UInt32 :=
  if duration = 0 ∨ 0x10000000000000000 ≤ count.toNat * 1000000 then none
  else some (carrier count duration)

def word? (c : Capture) (t : UInt32) : Option Capture :=
  if c.words = 2 ∧ c.mark ≠ 0 then
    (carrier? t c.mark).map fun frequency =>
      { ({ c with frequency } : Capture).push c.mark with words := 3 }
  else c.word t

/-- The places at which the words of a packet begin: every second one from the third on, in front of
the length. -/
def wordPlaces (length : Nat) : List Nat :=
  (List.range ((length - 1) / 2)).map (2 + 2 * ·)

def wordAt? (packet : Report) (place : Nat) : Option UInt32 := do
  let high ← packet[place]?
  let low ← packet[place + 1]?
  return UInt32.ofNat (256 * high.toNat + low.toNat)

def wordOf? (packet : Report) (c : Capture) (place : Nat) : Option Capture :=
  (wordAt? packet place).bind c.word?

def takeIn? (c : Capture) (packet : Report) : Option (Except ProtocolError Capture) := do
  if packet.length ≤ 63 then return .error (.shortPacket 64 packet.length)
  match ← c.number? (← packet[1]?) with
  | .error cause => return .error cause
  | .ok c =>
    let length ← packet[63]?
    if length.toNat % 2 ≠ 0 ∨ 63 < length.toNat then
      return .error (.malformed "IR capture length")
    return .ok (← (wordPlaces length.toNat).foldlM (wordOf? packet) c)

theorem number?_eq (c : Capture) (actual : UInt8) : c.number? actual = some (c.number actual) := by
  unfold number? number
  dsimp only
  rw [Sequence.skip?_eq, Sequence.skip?_eq]
  split
  · rfl
  · split
    · rw [Option.bind_some, Sequence.skip?_eq]
      rfl
    · rfl

theorem carrier?_eq {count duration : UInt32} (h : duration ≠ 0) :
    carrier? count duration = some (carrier count duration) := by
  have hcount := count.toNat_lt
  have hproduct : ¬ 0x10000000000000000 ≤ count.toNat * 1000000 := by omega
  exact if_neg (not_or.2 ⟨h, hproduct⟩)

theorem word?_eq (c : Capture) (t : UInt32) : c.word? t = c.word t := by
  unfold word?
  split
  · rename_i h
    rw [carrier?_eq h.2, word, place, h.1]
    simp [h.2]
  · rfl

variable {packet : Report} {c : Capture}

/-- The words of a packet stand in front of its length. -/
theorem Sized.places (h : Sized packet) {place : Nat}
    (hplace : place ∈ wordPlaces (packet.getD 63 0).toNat) :
    2 ≤ place ∧ place + 2 ≤ 63 ∧ 63 < packet.length := by
  obtain ⟨i, hi, rfl⟩ := List.mem_map.1 hplace
  have hi := List.mem_range.1 hi
  have hlong := h.long
  have heven := h.even
  have hshort := h.short
  omega

theorem wordAt?_eq {place : Nat} (h : place + 2 ≤ packet.length) :
    wordAt? packet place = some (UInt32.ofNat
      (256 * (packet.getD place 0).toNat + (packet.getD (place + 1) 0).toNat)) := by
  rw [wordAt?, getElem?_eq_getD (by omega) 0, getElem?_eq_getD (by omega) 0]
  rfl

theorem Sized.carried_eq (h : Sized packet) :
    carried packet = (wordPlaces (packet.getD 63 0).toNat).map fun place =>
      UInt32.ofNat (256 * (packet.getD place 0).toNat + (packet.getD (place + 1) 0).toNat) := by
  have heven := h.even
  have hcount : ((packet.getD 63 0).toNat - 1) / 2 = ((packet.getD 63 0).toNat - 2) / 2 := by omega
  rw [carried, wordPlaces, hcount, List.map_map]
  refine List.map_congr_left fun i _ => ?_
  have hnext : 2 + 2 * i + 1 = 3 + 2 * i := by omega
  simp only [Function.comp_apply, hnext]

theorem Sized.length_carried (h : Sized packet) :
    (carried packet).length = (wordPlaces (packet.getD 63 0).toNat).length := by
  rw [h.carried_eq, List.length_map]

/-- What is looked up in a packet are its words, one after another. -/
theorem Sized.foldlM_wordOf? (h : Sized packet) (n : Nat) (c : Capture) :
    ((wordPlaces (packet.getD 63 0).toNat).take n).foldlM (wordOf? packet) c =
      ((carried packet).take n).foldlM word c := by
  have hinside : ∀ place ∈ (wordPlaces (packet.getD 63 0).toNat).take n,
      place + 2 ≤ packet.length := by
    intro place hplace
    have hbounds := h.places (List.mem_of_mem_take hplace)
    omega
  rw [h.carried_eq, ← List.map_take]
  generalize (wordPlaces (packet.getD 63 0).toNat).take n = places at hinside ⊢
  induction places generalizing c with
  | nil => rfl
  | cons place rest ih =>
    rw [List.forall_mem_cons] at hinside
    rw [List.map_cons, List.foldlM_cons, List.foldlM_cons, wordOf?, wordAt?_eq hinside.1,
      Option.bind_some, word?_eq]
    cases c.word _ with
    | none => rfl
    | some next => exact ih next hinside.2

/-- A packet of another size is refused before a word of it is looked up. -/
theorem exists_refused_of_not_sized (h : ¬ Sized packet) (c : Capture) :
    ∃ cause, c.takeIn packet = .error (.failed cause) ∧ c.takeIn? packet = some (.error cause) := by
  by_cases hlong : packet.length ≤ 63
  · refine ⟨.shortPacket 64 packet.length, ?_, ?_⟩
    · rw [takeIn, List.getElem?_eq_none hlong]
    · rw [takeIn?, if_pos hlong]
      rfl
  · have hcounts : (packet.getD 63 0).toNat % 2 ≠ 0 ∨ 63 < (packet.getD 63 0).toNat :=
      Decidable.byContradiction fun hcounts => h ⟨by omega, by omega, by omega⟩
    rw [takeIn, takeIn?, if_neg hlong, getElem?_eq_getD (Nat.not_le.1 hlong) 0,
      getElem?_eq_getD (show 1 < packet.length by omega) 0]
    dsimp only [Option.bind_eq_bind, Option.bind_some]
    rw [number?_eq, Option.bind_some]
    cases c.number (packet.getD 1 0) with
    | error cause => exact ⟨cause, rfl, rfl⟩
    | ok numbered =>
      simp only [if_pos hcounts]
      exact ⟨.malformed "IR capture length", rfl, rfl⟩

/-- No place of a packet that is looked up is missing: a packet is taken in, or refused, and all that can
fail within bounds is the space that leaves its machine word. -/
theorem takeIn?_eq (c : Capture) (packet : Report) :
    c.takeIn? packet =
      match c.takeIn packet with
      | .ok next => some (.ok next)
      | .error (.failed cause) => some (.error cause)
      | .error _ => none := by
  by_cases hsized : Sized packet
  · have hlong : ¬ packet.length ≤ 63 := Nat.not_le.2 hsized.long
    have hcounts : ¬ ((packet.getD 63 0).toNat % 2 ≠ 0 ∨ 63 < (packet.getD 63 0).toNat) := by
      have heven := hsized.even
      have hshort := hsized.short
      omega
    rw [hsized.takeIn_eq, numberOf, takeIn?, if_neg hlong,
      getElem?_eq_getD (Nat.not_le.1 hlong) 0, getElem?_eq_getD (show 1 < packet.length by omega) 0]
    dsimp only [Option.bind_eq_bind, Option.bind_some]
    rw [number?_eq, Option.bind_some]
    cases c.number (packet.getD 1 0) with
    | error cause => rfl
    | ok numbered =>
      have hwords := hsized.foldlM_wordOf? (carried packet).length numbered
      rw [List.take_length, hsized.length_carried, List.take_length] at hwords
      simp only [if_neg hcounts, hwords]
      cases (carried packet).foldlM word numbered <;> rfl
  · obtain ⟨cause, hrefused, hrefused?⟩ := exists_refused_of_not_sized hsized c
    rw [hrefused, hrefused?]

theorem checked_takeIn? (c : Capture) (packet : Report) :
    Exchange.checked (c.takeIn? packet) = Exchange.checkHalt (c.takeIn packet) := by
  rw [takeIn?_eq]
  rcases htaken : c.takeIn packet with (cause | _ | _) | next
  · rfl
  · rfl
  · exact absurd htaken (takeIn_ne_stalled c packet)
  · rfl

/-! ## Durations -/

theorem length_push_le (h : c.pulses.length ≤ maxPulses) (t : UInt32) :
    (c.push t).pulses.length ≤ maxPulses := by
  unfold push
  split
  · rename_i hroom
    exact hroom
  · exact h

theorem length_word_le {next : Capture} {t : UInt32} (h : c.pulses.length ≤ maxPulses)
    (hword : c.word t = some next) : next.pulses.length ≤ maxPulses := by
  obtain ⟨placed, hplace, rfl⟩ := Option.map_eq_some_iff.1 hword
  change placed.pulses.length ≤ maxPulses
  unfold place at hplace
  split at hplace
  · cases hplace
    exact h
  · cases hplace
    exact h
  · cases hplace
    split
    · exact h
    · exact length_push_le (c := { c with frequency := carrier t c.mark }) h c.mark
  · split at hplace
    · split at hplace
      · obtain ⟨gap, -, rfl⟩ := Option.map_eq_some_iff.1 hplace
        exact h
      · cases hplace
        exact h
    · cases hplace
      split
      · exact h
      · exact length_push_le (length_push_le (c := { c with mark := t }) h c.gap) t

theorem length_foldlM_word_le {ts : List UInt32} {next : Capture} (h : c.pulses.length ≤ maxPulses)
    (hwords : ts.foldlM word c = some next) : next.pulses.length ≤ maxPulses := by
  induction ts generalizing c with
  | nil =>
    cases hwords
    exact h
  | cons t ts ih =>
    rw [List.foldlM_cons] at hwords
    obtain ⟨between, hword, hrest⟩ := Option.bind_eq_some_iff.1 hwords
    exact ih (length_word_le h hword) hrest

theorem number_pulses {numbered : Capture} {actual : UInt8} (h : c.number actual = .ok numbered) :
    numbered.pulses = c.pulses :=
  (congrArg pulses (eq_of_number h)).symm

theorem Heard.length_pulses_le {code : UInt8} {last : Capture} {packets : List Report}
    (h : Heard code c packets last) (hroom : c.pulses.length ≤ maxPulses) :
    last.pulses.length ≤ maxPulses := by
  induction h with
  | none => exact hroom
  | packet hopen hcode htaken hrest ih =>
    obtain ⟨numbered, hnumber, hwords⟩ := exists_of_takeIn htaken
    exact ih (length_foldlM_word_le (number_pulses hnumber ▸ hroom) hwords)

/-! ## One packet -/

/-- What a packet can do to a capture that reads it. -/
structure Bounded (c : Capture) (packet : Report) : Prop where
  /-- A packet of another size is refused before a word of it is looked up. -/
  refused : ¬ Sized packet →
    ∃ cause, c.takeIn packet = .error (.failed cause) ∧ c.takeIn? packet = some (.error cause)
  inside : Sized packet → ∀ place ∈ wordPlaces (packet.getD 63 0).toNat,
    2 ≤ place ∧ place + 2 ≤ 63 ∧ 63 < packet.length
  /-- Behind each word that is taken in, the space is bounded and the durations have room. -/
  within : Sized packet → ∀ numbered, c.number (numberOf packet) = .ok numbered →
    ∀ n, ∃ between, ((wordPlaces (packet.getD 63 0).toNat).take n).foldlM (wordOf? packet) numbered =
        some between ∧
      between.gap.toNat ≤ 500000 + 15 * 65535 ∧ between.pulses.length ≤ 1000

theorem bounded_of_not_isOver (hopen : c.isOver = false) (hroom : c.pulses.length ≤ maxPulses)
    (packet : Report) : c.Bounded packet where
  refused h := exists_refused_of_not_sized h c
  inside h place := h.places
  within := by
    intro hsized numbered hnumber n
    have hmax : maxGap.toNat = 500000 := rfl
    have hgap : numbered.gap.toNat < maxGap.toNat := by
      rw [(number_gap hnumber).1]
      exact gap_lt_of_not_isOver (Bool.eq_false_iff.1 hopen)
    have hcount : ((carried packet).take n).length ≤ 30 :=
      Nat.le_trans (List.length_take_le' n _) hsized.length_carried_le
    have hwords : ∀ t ∈ (carried packet).take n, t.toNat ≤ 65535 := by
      rw [← hsized.wordsOf_eq]
      exact fun t ht => toNat_le_of_mem_wordsOf (List.mem_of_mem_take ht)
    obtain ⟨between, hbetween, hbound⟩ := exists_foldlM_word_of_packet hgap hcount hwords
    refine ⟨between, (hsized.foldlM_wordOf? n numbered).trans hbetween, ?_, ?_⟩
    · rw [packetGap] at hbound
      omega
    · exact length_foldlM_word_le (number_pulses hnumber ▸ hroom) hbetween

end Capture

/-! ## Captures -/

namespace Signal

open Exchange Capture

def listen? (code : UInt8) : Nat → Capture → Exchange RemoteError Signal
  | 0, c => if c.isOver then pure c.finish else stalled
  | patience + 1, c =>
    if c.isOver then pure c.finish
    else do
      let packet ← receive c.wait
      let kind := packet.headD 0 &&& 0xF0
      if kind = code then
        let c ← checked (c.takeIn? packet)
        progress .learnIr c.pulses.length Capture.maxPulses
        listen? code patience c
      else if kind = 0xF0 then pure c.finish
      else refuse (.unexpectedResponse kind "learning IR")

def capture? (code : UInt8) (patience : Nat) : Exchange RemoteError Signal :=
  listen? code patience {}

theorem listen?_eq : listen? = listen := by
  funext code patience c
  induction patience generalizing c with
  | zero => rfl
  | succ patience ih =>
    unfold listen? listen
    simp only [checked_takeIn?, ih]

theorem capture?_eq : capture? = capture := by
  funext code patience
  exact congrFun (congrFun (congrFun listen?_eq code) patience) {}

theorem Ends.eq_nil_or_singleton {code : UInt8} {c : Capture} {ending : List Turn}
    {result : Except (Halt RemoteError) Signal} (h : Ends code c ending result) :
    ending = [] ∨ c.isOver = false ∧ ∃ turn, ending = [turn] := by
  cases h with
  | ended | impatient => exact .inl rfl
  | unheard hopen | refused hopen | done hopen | strange hopen => exact .inr ⟨hopen, _, rfl⟩

/-- Where a capture reads, it has taken in all that it heard before, and has not come to its end. If it
reads on, it has taken in this packet too. -/
theorem exists_heard_of_read {code : UInt8} {c last : Capture} {packets : List Report}
    {ending before after : List Turn} {result : Except (Halt RemoteError) Signal}
    {outcome : Except LinkError Report} (h : Heard code c packets last)
    (hends : Ends code last ending result)
    (hsplit : packets.map .hear ++ ending = before ++ .read outcome :: after) :
    ∃ heard here, before = heard.map .hear ∧ Heard code c heard here ∧ here.isOver = false ∧
      (after ≠ [] → ∃ packet next, outcome = .ok packet ∧ kindOf packet = code ∧
        here.takeIn packet = .ok next ∧ next.isOver = false) := by
  induction h generalizing before with
  | none c =>
    rcases hends.eq_nil_or_singleton with rfl | ⟨hopen, turn, rfl⟩
    · simp at hsplit
    · rcases List.append_eq_singleton_iff.1 hsplit.symm with ⟨rfl, hturn⟩ | ⟨-, hnone⟩
      · cases hturn
        exact ⟨[], c, rfl, .none c, hopen, fun hafter => absurd rfl hafter⟩
      · cases hnone
  | @packet c next last packet rest hopen hcode htaken hrest ih =>
    cases before with
    | nil =>
      obtain ⟨hread, hafter⟩ := List.cons.inj hsplit
      cases hread
      refine ⟨[], c, rfl, .none c, hopen, fun hmore => ⟨packet, next, rfl, hcode, htaken, ?_⟩⟩
      cases hrest with
      | packet hopen => exact hopen
      | none =>
        rcases hends.eq_nil_or_singleton with rfl | ⟨hopen, -⟩
        · exact absurd hafter.symm hmore
        · exact hopen
    | cons turn before =>
      obtain ⟨rfl, hlater⟩ := List.cons.inj hsplit
      obtain ⟨heard, here, rfl, hheard, hreads⟩ := ih hends hlater
      exact ⟨packet :: heard, here, rfl, .packet hopen hcode htaken hheard, hreads⟩

theorem ne_overflow_of_run (code : UInt8) (patience : Nat) (device : Device σ) (state : σ) :
    ((capture code patience).run.run device state).result ≠ .error .overflow := by
  intro hresult
  have hends := (Program.Ensures.run (concludes_capture code patience []) device state).1
  rw [hresult] at hends
  exact hends.1 rfl

theorem Ends.length_pulses_le {code : UInt8} {c : Capture} {ending : List Turn} {signal : Signal}
    (h : Ends code c ending (.ok signal)) (hroom : c.pulses.length ≤ maxPulses) :
    signal.pulses.length ≤ maxPulses := by
  have hfinish : c.finish.pulses.length ≤ maxPulses := by
    rw [finish, List.length_reverse]
    exact length_push_le hroom c.gap
  cases h with
  | ended | done => exact hfinish

/-- A read of a capture, behind reports heard and in front of further turns. -/
structure Reads (code : UInt8) (heard : List Report) (c : Capture)
    (outcome : Except LinkError Report) (after : List Turn) : Prop where
  codes : ∀ packet ∈ heard, kindOf packet = code
  taken : heard.foldlM takeIn {} = .ok c
  gap : c.gap.toNat < 500000
  recorded : c.pulses.length ≤ 1000
  packet : ∀ packet, outcome = .ok packet → kindOf packet = code → c.Bounded packet
  /-- Behind the packet that ends the signal nothing is read, -/
  ended : ∀ packet next, outcome = .ok packet → c.takeIn packet = .ok next →
    500000 ≤ next.gap.toNat → after = []
  /-- nor behind a report of another kind, with which the remote says that it is done. -/
  done : ∀ report, outcome = .ok report → kindOf report ≠ code → after = []

theorem exists_reads {code : UInt8} {last : Capture} {packets : List Report} {ending : List Turn}
    {result : Except (Halt RemoteError) Signal} (h : Heard code {} packets last)
    (hends : Ends code last ending result) {before after : List Turn}
    {outcome : Except LinkError Report}
    (hsplit : packets.map .hear ++ ending = before ++ .read outcome :: after) :
    ∃ heard c, before = heard.map .hear ∧ Reads code heard c outcome after := by
  obtain ⟨heard, c, hbefore, hheard, hopen, hmore⟩ := exists_heard_of_read h hends hsplit
  have hroom := hheard.length_pulses_le (Nat.zero_le maxPulses)
  refine ⟨heard, c, hbefore, hheard.kindOf, hheard.foldlM_takeIn, ?_, hroom, ?_, ?_, ?_⟩
  · exact gap_lt_of_not_isOver (Bool.eq_false_iff.1 hopen)
  · exact fun packet _ _ => bounded_of_not_isOver hopen hroom packet
  · rintro packet next rfl htaken hlong
    refine Classical.byContradiction fun hafter => ?_
    obtain ⟨other, later, hpacket, -, hnext, hshort⟩ := hmore hafter
    cases hpacket
    obtain rfl : next = later := Except.ok.inj (htaken.symm.trans hnext)
    exact absurd (gap_lt_of_not_isOver (Bool.eq_false_iff.1 hshort)) (Nat.not_lt.2 hlong)
  · rintro report rfl hother
    refine Classical.byContradiction fun hafter => ?_
    obtain ⟨packet, next, hpacket, hcode, -⟩ := hmore hafter
    cases hpacket
    exact hother hcode

/-- Whatever a remote sends, a capture looks up no place that is not there, leaves no machine word, and
records at most a thousand durations. Its space is below half a second wherever it reads on, so that the
words of no packet bring it further than these can. -/
theorem capture_within_bounds (code : UInt8) (patience : Nat) (device : Device σ) (state : σ) :
    let run := (capture code patience).run.run device state
    capture? code patience = capture code patience ∧ run.result ≠ .error .overflow ∧
    (∀ signal, run.result = .ok signal → signal.pulses.length ≤ 1000) ∧
    ∀ before outcome after, turns run.trace = before ++ .read outcome :: after →
      ∃ heard c, before = heard.map .hear ∧ Reads code heard c outcome after := by
  intro run
  obtain ⟨packets, last, ending, hheard, hends, hturns⟩ := exists_heard_of_takes
    (Program.takes_run (capture code patience).run device state)
  refine ⟨congrFun (congrFun capture?_eq code) patience, ne_overflow_of_run code patience device state,
    fun signal hsignal => ?_, fun before outcome after hsplit => ?_⟩
  · rw [show ((capture code patience).run.run device state).result = .ok signal from hsignal] at hends
    exact hends.length_pulses_le (hheard.length_pulses_le (Nat.zero_le maxPulses))
  · rw [show turns run.trace = _ from hturns] at hsplit
    exact exists_reads hheard hends hsplit

/-- Eight sums without a mark bring the space over its limit within one packet, and the next packet is
left unread. -/
example :
    let long := packetOf 0x00 ([0, 26, 1, 600] ++ (List.replicate 8 [0, 0xFFFF]).flatten)
    let run := (capture 0x90 5).run.run Script.device
      { reads := [.report long, .report (packetOf 0x10 [0])] }
    run.result = .ok ⟨38461, [26, 574 + 8 * 0xFFFF]⟩ ∧
      run.state.reads = [.report (packetOf 0x10 [0])] :=
  ⟨rfl, rfl⟩

end Signal

end UniversalRemote
