import UniversalRemote.Proofs.Infrared.Gap
/-!
# What a capture takes in

A capture takes in packets of one code while its space is short enough, and ends behind them in one of
six ways (`Signal.exists_heard_of_takes`). What a packet brings are the words between its second byte
and the length in its last.
-/

namespace UniversalRemote

def Signal.kindOf (report : Report) : UInt8 :=
  report.headD 0 &&& 0xF0

namespace Capture

/-! ## Packets -/

/-- A packet has its length in the last of its 64 bytes, an even number that leaves that byte out. -/
structure Sized (packet : Report) : Prop where
  long : 64 ≤ packet.length
  even : (packet.getD 63 0).toNat % 2 = 0
  short : (packet.getD 63 0).toNat ≤ 63

instance (packet : Report) : Decidable (Sized packet) :=
  decidable_of_iff (64 ≤ packet.length ∧ (packet.getD 63 0).toNat % 2 = 0 ∧
    (packet.getD 63 0).toNat ≤ 63) ⟨fun h => ⟨h.1, h.2.1, h.2.2⟩, fun h => ⟨h.1, h.2, h.3⟩⟩

def numberOf (packet : Report) : UInt8 :=
  packet.getD 1 0

/-- The words of a packet: two bytes each, the more significant one first, from the third byte on. -/
def carried (packet : Report) : List UInt32 :=
  (List.range (((packet.getD 63 0).toNat - 2) / 2)).map fun i =>
    UInt32.ofNat (256 * (packet.getD (2 + 2 * i) 0).toNat + (packet.getD (3 + 2 * i) 0).toNat)

/-- The packet of a number and some words, filled up to its size. -/
def packetOf (number : UInt8) (words : List Nat) : Report :=
  (0x90 :: number :: words.flatMap (ByteOrder.big.bytes 2) ++ List.replicate 61 0).take 63 ++
    [UInt8.ofNat (2 + 2 * words.length)]

theorem Sized.wordsOf_eq {packet : Report} (h : Sized packet) :
    wordsOf ((packet.take (packet.getD 63 0).toNat).drop 2) = carried packet := by
  have hlong := h.long
  have hshort := h.short
  rw [wordsOf_eq_map, carried, List.length_drop, List.length_take, Nat.min_eq_left (by omega)]
  refine List.map_congr_left fun i hi => ?_
  have hi := List.mem_range.1 hi
  have hbyte : ∀ place, 2 + place < (packet.getD 63 0).toNat →
      ((packet.take (packet.getD 63 0).toNat).drop 2).getD place 0 = packet.getD (2 + place) 0 := by
    intro place hplace
    rw [List.getD_eq_getElem?_getD, List.getElem?_drop, List.getElem?_take_of_lt hplace,
      List.getD_eq_getElem?_getD]
  rw [hbyte (2 * i) (by omega), hbyte (2 * i + 1) (by omega)]
  congr 4
  omega

theorem Sized.length_carried_le {packet : Report} (h : Sized packet) :
    (carried packet).length ≤ 30 := by
  have heven := h.even
  have hshort := h.short
  rw [carried, List.length_map, List.length_range]
  omega

theorem sized_of_takeIn {c next : Capture} {packet : Report} (h : c.takeIn packet = .ok next) :
    Sized packet := by
  unfold takeIn at h
  split at h
  · cases h
  rename_i length hlast
  have hlength : packet.getD 63 0 = length := by
    rw [List.getD_eq_getElem?_getD, hlast]
    rfl
  have hlong := (List.getElem?_eq_some_iff.1 hlast).1
  split at h
  · cases h
  split at h
  · cases h
  rename_i hcounts
  rw [not_or, Decidable.not_not, Nat.not_lt] at hcounts
  exact ⟨hlong, hlength ▸ hcounts.1, hlength ▸ hcounts.2⟩

/-- A packet of the right size is refused for its number only. -/
theorem Sized.takeIn_eq {packet : Report} (h : Sized packet) (c : Capture) :
    c.takeIn packet =
      match c.number (numberOf packet) with
      | .error cause => .error (.failed cause)
      | .ok numbered =>
        match (carried packet).foldlM word numbered with
        | some next => .ok next
        | none => .error .overflow := by
  have hlast : packet[63]? = some (packet.getD 63 0) := by
    rw [List.getElem?_eq_getElem h.long, List.getD_eq_getElem?_getD,
      List.getElem?_eq_getElem h.long]
    rfl
  have hcounts : ¬ ((packet.getD 63 0).toNat % 2 ≠ 0 ∨ 63 < (packet.getD 63 0).toNat) := by
    have heven := h.even
    have hshort := h.short
    omega
  rw [takeIn, hlast, numberOf]
  dsimp only
  cases c.number (packet.getD 1 0) with
  | error cause => rfl
  | ok numbered =>
    dsimp only
    cases hwords : (carried packet).foldlM word numbered with
    | none => simp only [if_neg hcounts, h.wordsOf_eq, hwords]
    | some next => simp only [if_neg hcounts, h.wordsOf_eq, hwords]

/-- What a packet that is taken in brings. -/
theorem exists_of_takeIn {c next : Capture} {packet : Report} (h : c.takeIn packet = .ok next) :
    ∃ numbered, c.number (numberOf packet) = .ok numbered ∧
      (carried packet).foldlM word numbered = some next := by
  rw [(sized_of_takeIn h).takeIn_eq] at h
  split at h
  · cases h
  rename_i numbered hnumber
  refine ⟨numbered, hnumber, ?_⟩
  split at h
  · rename_i hwords
    cases h
    exact hwords
  · cases h

/-- Packets of a code that a capture takes in one after another, none of them behind its end. -/
inductive Heard (code : UInt8) : Capture → List Report → Capture → Prop
  | none (c : Capture) : Heard code c [] c
  | packet {c next last : Capture} {packet : Report} {rest : List Report}
    (hopen : c.isOver = false) (hcode : Signal.kindOf packet = code)
    (htaken : c.takeIn packet = .ok next) (hrest : Heard code next rest last) :
    Heard code c (packet :: rest) last

theorem Heard.kindOf {code : UInt8} {c last : Capture} {packets : List Report}
    (h : Heard code c packets last) : ∀ packet ∈ packets, Signal.kindOf packet = code := by
  induction h with
  | none => exact nofun
  | packet hopen hcode htaken hrest ih => exact List.forall_mem_cons.2 ⟨hcode, ih⟩

theorem Heard.foldlM_takeIn {code : UInt8} {c last : Capture} {packets : List Report}
    (h : Heard code c packets last) : packets.foldlM takeIn c = .ok last := by
  induction h with
  | none => rfl
  | packet hopen hcode htaken hrest ih =>
    rw [List.foldlM_cons, htaken]
    exact ih

theorem Heard.sized {code : UInt8} {c last : Capture} {packets : List Report}
    (h : Heard code c packets last) : ∀ packet ∈ packets, Sized packet := by
  induction h with
  | none => exact nofun
  | packet hopen hcode htaken hrest ih => exact List.forall_mem_cons.2 ⟨sized_of_takeIn htaken, ih⟩

/-! ## Words and the sequence -/

theorem push_sequence (c : Capture) (s : Sequence) (t : UInt32) :
    ({ c with sequence := s } : Capture).push t = { c.push t with sequence := s } := by
  unfold push
  dsimp only
  split <;> rfl

theorem finish_sequence (c : Capture) (s : Sequence) :
    ({ c with sequence := s } : Capture).finish = c.finish := by
  rw [finish, push_sequence]
  rfl

/-- Words do not touch the sequence of packets, nor does the sequence touch them. -/
theorem word_sequence (c : Capture) (s : Sequence) (t : UInt32) :
    ({ c with sequence := s } : Capture).word t =
      (c.word t).map fun next => { next with sequence := s } := by
  have hplace : ({ c with sequence := s } : Capture).place t =
      (c.place t).map fun next => { next with sequence := s } := by
    unfold place
    dsimp only
    split
    · rfl
    · rfl
    · split
      · rfl
      · exact congrArg some (push_sequence { c with frequency := carrier t c.mark } s c.mark)
    · split
      · split
        · cases checkedSum c.gap t <;> rfl
        · rfl
      · split
        · rfl
        · have hgap := push_sequence { c with mark := t } s c.gap
          have hmark := push_sequence (({ c with mark := t } : Capture).push c.gap) s t
          rw [← hgap] at hmark
          exact congrArg some hmark
  rw [word, hplace, word, Option.map_map, Option.map_map]
  rfl

theorem foldlM_word_sequence (ts : List UInt32) (c : Capture) (s : Sequence) :
    ts.foldlM word { c with sequence := s } =
      (ts.foldlM word c).map fun next => { next with sequence := s } := by
  induction ts generalizing c with
  | nil => rfl
  | cons t ts ih =>
    rw [List.foldlM_cons, List.foldlM_cons, word_sequence]
    cases c.word t with
    | none => rfl
    | some next => exact ih next

theorem eq_of_number {c numbered : Capture} {actual : UInt8} (h : c.number actual = .ok numbered) :
    c = { numbered with sequence := c.sequence } := by
  unfold number at h
  dsimp only at h
  split at h
  · cases h
    rfl
  split at h
  · cases h
    rfl
  · cases h

/-- What a capture knows behind some packets depends on their words only, but for the sequence. -/
theorem foldlM_word_of_takeIn {packets : List Report} {c last : Capture}
    (h : packets.foldlM takeIn c = .ok last) :
    (packets.flatMap carried).foldlM word c = some { last with sequence := c.sequence } := by
  induction packets generalizing c with
  | nil =>
    obtain rfl := Except.ok.inj h
    rfl
  | cons packet rest ih =>
    rw [List.foldlM_cons] at h
    cases htaken : c.takeIn packet with
    | error halt =>
      rw [htaken] at h
      exact nomatch h
    | ok next =>
      rw [htaken] at h
      obtain ⟨numbered, hnumber, hwords⟩ := exists_of_takeIn htaken
      have hfirst : (carried packet).foldlM word c = some { next with sequence := c.sequence } := by
        have hsame := foldlM_word_sequence (carried packet) numbered c.sequence
        rw [← eq_of_number hnumber, hwords] at hsame
        exact hsame
      rw [List.flatMap_cons, List.foldlM_append, hfirst]
      change (rest.flatMap carried).foldlM word { next with sequence := c.sequence } = _
      rw [foldlM_word_sequence, ih h]
      rfl

theorem Heard.foldlM_word {code : UInt8} {c last : Capture} {packets : List Report}
    (h : Heard code c packets last) :
    (packets.flatMap carried).foldlM word c = some { last with sequence := c.sequence } :=
  foldlM_word_of_takeIn h.foldlM_takeIn

end Capture

/-! ## Captures -/

namespace Signal

open Exchange

/-- How a capture ends behind what it has taken in. -/
inductive Ends (code : UInt8) (c : Capture) : List Turn → Except (Halt RemoteError) Signal → Prop
  | ended (hover : c.isOver = true) : Ends code c [] (.ok c.finish)
  | impatient (hopen : c.isOver = false) : Ends code c [] (.error .stalled)
  | unheard (hopen : c.isOver = false) (cause : LinkError) :
    Ends code c [.read (.error cause)] (.error (.failed (.link cause)))
  | refused (hopen : c.isOver = false) (packet : Report) (hcode : kindOf packet = code)
    (halt : Halt ProtocolError) (hrefused : c.takeIn packet = .error halt) :
    Ends code c [.hear packet] (.error (halt.map .protocol))
  | done (hopen : c.isOver = false) (report : Report) (hcode : kindOf report ≠ code)
    (hdone : kindOf report = 0xF0) : Ends code c [.hear report] (.ok c.finish)
  | strange (hopen : c.isOver = false) (report : Report) (hcode : kindOf report ≠ code)
    (hdone : kindOf report ≠ 0xF0) : Ends code c [.hear report]
      (.error (.failed (.protocol (.unexpectedResponse (kindOf report) "learning IR"))))

theorem exists_heard_of_takes {code : UInt8} {patience : Nat} {c : Capture} {dialogue : List Turn}
    {result : Except (Halt RemoteError) Signal}
    (h : (listen code patience c).run.Takes dialogue result) :
    ∃ packets last ending, Capture.Heard code c packets last ∧ Ends code last ending result ∧
      dialogue = packets.map .hear ++ ending := by
  induction patience generalizing c dialogue with
  | zero =>
    unfold listen at h
    split at h
    · rename_i hover
      obtain ⟨rfl, rfl⟩ := h
      exact ⟨[], c, [], .none c, .ended hover, rfl⟩
    · rename_i hopen
      obtain ⟨rfl, rfl⟩ := h
      exact ⟨[], c, [], .none c, .impatient (Bool.eq_false_iff.2 hopen), rfl⟩
  | succ patience ih =>
    unfold listen at h
    split at h
    · rename_i hover
      obtain ⟨rfl, rfl⟩ := h
      exact ⟨[], c, [], .none c, .ended hover, rfl⟩
    rename_i hopen
    have hopen := Bool.eq_false_iff.2 hopen
    rcases takes_bind.1 h with ⟨halt, hread, rfl⟩ | ⟨packet, _, rest, rfl, hread, hrest⟩
    · obtain ⟨cause | report, _, rfl, rfl, hresult⟩ := hread
      · cases hresult
        exact ⟨[], c, _, .none c, .unheard hopen cause, rfl⟩
      · cases hresult
    obtain rfl := yields_receive.1 hread
    dsimp only at hrest
    split at hrest
    · rename_i hcode
      cases htaken : c.takeIn packet with
      | error halt =>
        rw [htaken] at hrest
        obtain ⟨rfl, rfl⟩ := hrest
        exact ⟨[], c, _, .none c, .refused hopen packet hcode halt htaken, rfl⟩
      | ok next =>
        rw [htaken] at hrest
        obtain ⟨packets, last, ending, hheard, hends, rfl⟩ := ih hrest
        exact ⟨packet :: packets, last, ending, .packet hopen hcode htaken hheard, hends, rfl⟩
    · rename_i hcode
      split at hrest
      · rename_i hdone
        obtain ⟨rfl, rfl⟩ := hrest
        exact ⟨[], c, _, .none c, .done hopen packet hcode hdone, rfl⟩
      · rename_i hdone
        obtain ⟨rfl, rfl⟩ := hrest
        exact ⟨[], c, _, .none c, .strange hopen packet hcode hdone, rfl⟩

def packetsIn (code : UInt8) (reports : List Report) : List Report :=
  reports.filter (kindOf · = code)

theorem packetsIn_append (code : UInt8) {packets : List Report}
    (hcode : ∀ packet ∈ packets, kindOf packet = code) (ending : List Turn) :
    packetsIn code (reportsOf (packets.map .hear ++ ending)) =
      packets ++ packetsIn code (reportsOf ending) := by
  have hheard : reportsOf (packets.map .hear) = packets := by
    rw [reportsOf, List.filterMap_map, List.filterMap_filterMap]
    exact List.filterMap_some
  have hall : packetsIn code packets = packets :=
    List.filter_eq_self.2 fun packet hpacket => decide_eq_true (hcode packet hpacket)
  rw [reportsOf_append, hheard, packetsIn, List.filter_append, ← packetsIn, hall]
  rfl

theorem packetsIn_singleton (code : UInt8) (report : Report) :
    packetsIn code [report] = if kindOf report = code then [report] else [] := by
  unfold packetsIn
  split <;> rename_i h <;> simp [h]

/-- Only a packet that is refused is heard behind those that are taken in. -/
theorem Ends.packetsIn_eq {code : UInt8} {c : Capture} {ending : List Turn}
    {result : Except (Halt RemoteError) Signal} (h : Ends code c ending result) :
    (packetsIn code (reportsOf ending) = [] ∧ (∀ signal, result = .ok signal → signal = c.finish) ∧
      ∀ due actual, result ≠ .error (.failed (.protocol (.sequenceMismatch due actual)))) ∨
    ∃ packet halt, packetsIn code (reportsOf ending) = [packet] ∧ c.isOver = false ∧
      c.takeIn packet = .error halt ∧ result = .error (halt.map .protocol) := by
  cases h with
  | ended => exact .inl ⟨rfl, fun _ h => (Except.ok.inj h).symm, nofun⟩
  | impatient | unheard => exact .inl ⟨rfl, nofun, nofun⟩
  | refused hopen packet hcode halt hrefused =>
    have hone : packetsIn code (reportsOf [.hear packet]) = [packet] :=
      (packetsIn_singleton code packet).trans (if_pos hcode)
    exact .inr ⟨packet, halt, hone, hopen, hrefused, rfl⟩
  | done hopen report hcode =>
    have hnone : packetsIn code (reportsOf [.hear report]) = [] :=
      (packetsIn_singleton code report).trans (if_neg hcode)
    exact .inl ⟨hnone, fun _ h => (Except.ok.inj h).symm, nofun⟩
  | strange hopen report hcode =>
    have hnone : packetsIn code (reportsOf [.hear report]) = [] :=
      (packetsIn_singleton code report).trans (if_neg hcode)
    exact .inl ⟨hnone, nofun, nofun⟩

/-- The packets that a run of a capture hears are those that it takes in and perhaps one that it
refuses. -/
theorem exists_heard_of_run (code : UInt8) (patience : Nat) (device : Device σ) (state : σ) :
    let run := (capture code patience).run.run device state
    ∃ packets last ending, Capture.Heard code {} packets last ∧ Ends code last ending run.result ∧
      packetsIn code (run.trace.filterMap Step.received?) =
        packets ++ packetsIn code (reportsOf ending) := by
  intro run
  obtain ⟨packets, last, ending, hheard, hends, hturns⟩ := exists_heard_of_takes
    (Program.takes_run (capture code patience).run device state)
  refine ⟨packets, last, ending, hheard, hends, ?_⟩
  rw [← reportsOf_turns, hturns, packetsIn_append code hheard.kindOf]

/-- A capture that ends with a signal has taken in all packets that it heard. -/
theorem exists_heard_of_yields {code : UInt8} {patience : Nat} {dialogue : List Turn}
    {signal : Signal} (h : (capture code patience).Yields dialogue signal) :
    ∃ last, Capture.Heard code {} (packetsIn code (reportsOf dialogue)) last ∧
      signal = last.finish := by
  obtain ⟨packets, last, ending, hheard, hends, rfl⟩ := exists_heard_of_takes h
  rw [packetsIn_append code hheard.kindOf]
  rcases hends.packetsIn_eq with ⟨hnone, hok, _⟩ | ⟨_, _, _, _, _, herror⟩
  · rw [hnone, List.append_nil]
    exact ⟨last, hheard, hok signal rfl⟩
  · cases herror

end Signal

end UniversalRemote
