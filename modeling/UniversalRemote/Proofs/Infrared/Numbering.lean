import Mathlib.Data.List.Induction
import UniversalRemote.Proofs.Infrared.Listening
/-!
# The numbers of capture packets

The packets of a capture are numbered in steps of sixteen. Once in a capture `0x1F` may come where
`0x10` is due, and the numbers behind it go on from there (`numberAt`). A capture takes in packets that
are numbered so, and no others, as long as the space that they add up to stays within its machine word
(`taken_iff_numbered`, `silent_packets_overflow`).
-/

namespace UniversalRemote

namespace Capture

/-- The number of the packet at a place, in a capture with an irregular number at `glitch` or with
none. -/
def numberAt (glitch : Option Nat) (place : Nat) : Nat :=
  match glitch with
  | none => 16 * place % 256
  | some g =>
    if place < g then 16 * place % 256
    else if place = g then 0x1F
    else (16 * place + 15) % 256

/-- Numbers of packets, by the irregular one among them; that one comes where `0x10` is due. -/
structure NumberedBy (glitch : Option Nat) (numbers : List UInt8) : Prop where
  due : ∀ g, glitch = some g → g < numbers.length ∧ g % 16 = 1
  each : ∀ place n, numbers[place]? = some n → n.toNat = numberAt glitch place

def Numbered (numbers : List UInt8) : Prop :=
  ∃ glitch, NumberedBy glitch numbers

/-! ## One number after another -/

/-- The number due behind `actual`, where `due` was due. -/
def following (due actual : UInt8) : Option UInt8 :=
  if actual = due then some (due + 0x10)
  else if actual = 0x1F ∧ due = 0x10 then some 0x2F
  else none

theorem number_eq_following {c : Capture} {due : UInt8}
    (hdue : c.sequence = Sequence.eightBit due 0x10) (actual : UInt8) :
    c.number actual =
      match following due actual with
      | some next => .ok { c with sequence := Sequence.eightBit next 0x10 }
      | none => .error (.sequenceMismatch due actual) := by
  have hcurrent : c.sequence.current = due := by rw [hdue]; rfl
  unfold number following
  rw [hcurrent]
  dsimp only
  split
  · rw [hdue, Sequence.skip_eightBit]
  · split
    · rename_i hglitch
      rw [hdue, Sequence.skip_eightBit, Sequence.skip_eightBit, hglitch.2]
      rfl
    · rfl

theorem following_self (due : UInt8) : following due due = some (due + 0x10) :=
  if_pos rfl

theorem following_eq_some_iff {due actual next : UInt8} :
    following due actual = some next ↔
      (actual = due ∧ due + 0x10 = next) ∨ (actual = 0x1F ∧ due = 0x10 ∧ 0x2F = next) := by
  unfold following
  split
  · rename_i heq
    subst heq
    simp only [Option.some.injEq, true_and]
    refine ⟨.inl, fun h => h.elim id ?_⟩
    rintro ⟨rfl, h, _⟩
    cases h
  · rename_i hne
    split
    · rename_i hglitch
      simp [hglitch, eq_comm]
    · rename_i hother
      simp only [reduceCtorEq, false_iff]
      rintro (h | ⟨hactual, hdue, _⟩)
      · exact hne h.1
      · exact hother ⟨hactual, hdue⟩

theorem toNat_add_step (due : UInt8) : (due + 0x10).toNat = (due.toNat + 16) % 256 :=
  UInt8.toNat_add due 0x10

theorem numberAt_succ {glitch : Option Nat} {place : Nat} (hplace : ∀ g, glitch = some g → g < place) :
    numberAt glitch (place + 1) = (numberAt glitch place + 16) % 256 := by
  cases glitch with
  | none =>
    simp only [numberAt]
    omega
  | some g =>
    have hg := hplace g rfl
    simp only [numberAt]
    rw [if_neg (by omega), if_neg (by omega), if_neg (by omega), if_neg (by omega)]
    omega

theorem numberAt_lt (glitch : Option Nat) (place : Nat) : numberAt glitch place < 256 := by
  unfold numberAt
  split
  · omega
  · split
    · omega
    · split <;> omega

section Snoc

variable {glitch : Option Nat} {numbers : List UInt8} {n : UInt8}

theorem each_append_singleton_iff {p : Nat → UInt8 → Prop} :
    (∀ place m, (numbers ++ [n])[place]? = some m → p place m) ↔
      (∀ place m, numbers[place]? = some m → p place m) ∧ p numbers.length n := by
  constructor
  · refine fun h => ⟨fun place m hm => ?_, h _ _ List.getElem?_concat_length⟩
    have hlt := (List.getElem?_eq_some_iff.1 hm).1
    exact h place m ((List.getElem?_append_left hlt).trans hm)
  · rintro ⟨hbefore, hlast⟩ place m hm
    rcases Nat.lt_or_ge place numbers.length with hlt | hge
    · rw [List.getElem?_append_left hlt] at hm
      exact hbefore place m hm
    · rw [List.getElem?_append_right hge, List.getElem?_singleton] at hm
      split at hm
      · cases hm
        obtain rfl : place = numbers.length := by omega
        exact hlast
      · cases hm

/-- Where the irregular number is not the last, it is among those before. -/
theorem numberedBy_append_singleton_iff (h : glitch ≠ some numbers.length) :
    NumberedBy glitch (numbers ++ [n]) ↔
      NumberedBy glitch numbers ∧ n.toNat = numberAt glitch numbers.length := by
  constructor
  · intro hboth
    obtain ⟨hnumbers, hn⟩ := each_append_singleton_iff.1 hboth.each
    refine ⟨⟨fun g hg => ?_, hnumbers⟩, hn⟩
    have hdue := hboth.due g hg
    have hne : g ≠ numbers.length := fun heq => h (heq ▸ hg)
    rw [List.length_append, List.length_singleton] at hdue
    omega
  · rintro ⟨hnumbers, hn⟩
    refine ⟨fun g hg => ?_, each_append_singleton_iff.2 ⟨hnumbers.each, hn⟩⟩
    have hdue := hnumbers.due g hg
    rw [List.length_append, List.length_singleton]
    omega

/-- Where the irregular number is the last, the numbers before it are regular. -/
theorem numberedBy_append_glitch_iff :
    NumberedBy (some numbers.length) (numbers ++ [n]) ↔
      NumberedBy none numbers ∧ numbers.length % 16 = 1 ∧ n = 0x1F := by
  have hbefore : ∀ place m, numbers[place]? = some m →
      numberAt (some numbers.length) place = numberAt none place := by
    intro place m hm
    exact if_pos (List.getElem?_eq_some_iff.1 hm).1
  have hlast : numberAt (some numbers.length) numbers.length = 0x1F := by
    rw [numberAt, if_neg (Nat.lt_irrefl _), if_pos rfl]
  constructor
  · intro hboth
    obtain ⟨hnumbers, hn⟩ := each_append_singleton_iff.1 hboth.each
    refine ⟨⟨nofun, fun place m hm => ?_⟩, (hboth.due _ rfl).2, ?_⟩
    · rw [hnumbers place m hm, hbefore place m hm]
    · exact UInt8.toNat_inj.1 (hn.trans hlast)
  · rintro ⟨hnumbers, hdue, rfl⟩
    refine ⟨fun g hg => ?_, each_append_singleton_iff.2 ⟨fun place m hm => ?_, hlast.symm⟩⟩
    · cases hg
      exact ⟨by simp, hdue⟩
    · rw [hnumbers.each place m hm, hbefore place m hm]

/-- Sixteen is due only before the irregular number, behind one packet, or seventeen, and so on. -/
theorem numberAt_eq_sixteen_iff (h : NumberedBy glitch numbers) :
    numberAt glitch numbers.length = 16 ↔ glitch = none ∧ numbers.length % 16 = 1 := by
  cases glitch with
  | none =>
    simp only [numberAt, true_and]
    omega
  | some g =>
    have hg := (h.due g rfl).1
    rw [numberAt, if_neg (by omega), if_neg (by omega)]
    simp only [reduceCtorEq, false_and, iff_false]
    omega

/-- What a capture counts on behind numbers that it has taken in. -/
structure Awaits (glitch : Option Nat) (numbers : List UInt8) (due : UInt8) : Prop where
  numbered : NumberedBy glitch numbers
  due_eq : due.toNat = numberAt glitch numbers.length

variable {due : UInt8}

theorem Awaits.regular (h : Awaits glitch numbers due) :
    Awaits glitch (numbers ++ [due]) (due + 0x10) := by
  have hplace : ∀ g, glitch = some g → g < numbers.length := fun g hg => (h.numbered.due g hg).1
  have hother : glitch ≠ some numbers.length := fun heq => absurd (hplace _ heq) (Nat.lt_irrefl _)
  refine ⟨(numberedBy_append_singleton_iff hother).2 ⟨h.numbered, h.due_eq⟩, ?_⟩
  rw [toNat_add_step, h.due_eq, List.length_append, List.length_singleton, numberAt_succ hplace]

theorem Awaits.irregular (h : Awaits glitch numbers 0x10) :
    Awaits (some numbers.length) (numbers ++ [0x1F]) 0x2F := by
  obtain ⟨rfl, hplace⟩ := (numberAt_eq_sixteen_iff h.numbered).1 h.due_eq.symm
  refine ⟨numberedBy_append_glitch_iff.2 ⟨h.numbered, hplace, rfl⟩, ?_⟩
  have hvalue : (0x2F : UInt8).toNat = 47 := rfl
  rw [List.length_append, List.length_singleton, numberAt, if_neg (by omega), if_neg (by omega)]
  omega

theorem Awaits.exists_before (h : Awaits glitch (numbers ++ [n]) due) :
    ∃ earlier before, Awaits earlier numbers before ∧ following before n = some due := by
  obtain ⟨hnumbered, hdue⟩ := h
  rw [List.length_append, List.length_singleton] at hdue
  by_cases hlast : glitch = some numbers.length
  · subst hlast
    obtain ⟨hbefore, hplace, rfl⟩ := numberedBy_append_glitch_iff.1 hnumbered
    have hsixteen := (numberAt_eq_sixteen_iff hbefore).2 ⟨rfl, hplace⟩
    have hvalue : (0x2F : UInt8).toNat = 47 := rfl
    rw [numberAt, if_neg (by omega), if_neg (by omega)] at hdue
    obtain rfl : due = 0x2F := UInt8.toNat_inj.1 (by omega)
    exact ⟨none, 0x10, ⟨hbefore, hsixteen.symm⟩, rfl⟩
  · obtain ⟨hbefore, hn⟩ := (numberedBy_append_singleton_iff hlast).1 hnumbered
    rw [numberAt_succ fun g hg => (hbefore.due g hg).1, ← hn, ← toNat_add_step] at hdue
    obtain rfl := UInt8.toNat_inj.1 hdue
    exact ⟨glitch, n, ⟨hbefore, hn⟩, following_self n⟩

end Snoc

/-- The numbers that follow on one another are those of a capture with or without an irregular one. -/
theorem foldlM_following_iff (numbers : List UInt8) (due : UInt8) :
    numbers.foldlM following 0 = some due ↔ ∃ glitch, Awaits glitch numbers due := by
  -- from the back: what is due depends on the numbers before
  induction numbers using List.reverseRecOn generalizing due with
  | nil =>
    constructor
    · intro h
      cases h
      exact ⟨none, ⟨nofun, nofun⟩, rfl⟩
    · rintro ⟨glitch, hnumbered, hdue⟩
      cases glitch with
      | none => exact congrArg some (UInt8.toNat_inj.1 hdue).symm
      | some g => exact absurd (hnumbered.due g rfl).1 (Nat.not_lt_zero g)
  | append_singleton numbers n ih =>
    have hstep : (numbers ++ [n]).foldlM following 0 = some due ↔
        ∃ before, numbers.foldlM following 0 = some before ∧ following before n = some due := by
      simp [List.foldlM_append, Option.bind_eq_some_iff]
    rw [hstep]
    constructor
    · rintro ⟨before, hbefore, hlast⟩
      obtain ⟨glitch, hawaits⟩ := (ih before).1 hbefore
      rcases following_eq_some_iff.1 hlast with ⟨rfl, rfl⟩ | ⟨rfl, rfl, rfl⟩
      · exact ⟨glitch, hawaits.regular⟩
      · exact ⟨some numbers.length, hawaits.irregular⟩
    · rintro ⟨glitch, hawaits⟩
      obtain ⟨earlier, before, hearlier, hlast⟩ := hawaits.exists_before
      exact ⟨before, (ih before).2 ⟨earlier, hearlier⟩, hlast⟩

theorem numbered_iff (numbers : List UInt8) :
    Numbered numbers ↔ ∃ due, numbers.foldlM following 0 = some due := by
  constructor
  · rintro ⟨glitch, hnumbered⟩
    have hlt := numberAt_lt glitch numbers.length
    refine ⟨UInt8.ofNat (numberAt glitch numbers.length),
      (foldlM_following_iff numbers _).2 ⟨glitch, hnumbered, ?_⟩⟩
    rw [UInt8.toNat_ofNat', Nat.mod_eq_of_lt hlt]
  · rintro ⟨due, hdue⟩
    obtain ⟨glitch, hnumbered, _⟩ := (foldlM_following_iff numbers due).1 hdue
    exact ⟨glitch, hnumbered⟩

/-! ## One packet after another -/

theorem foldlM_word_keeps_sequence {ts : List UInt32} {c next : Capture}
    (h : ts.foldlM word c = some next) : next.sequence = c.sequence := by
  have hsame := foldlM_word_sequence ts c c.sequence
  rw [h] at hsame
  have hkept : next = { next with sequence := c.sequence } := Option.some.inj hsame
  rw [hkept]

/-- Packets of the right size are taken in, or refused for the number of one of them; or the space
leaves its machine word before that. -/
theorem foldlM_takeIn_cases {packets : List Report} (hsized : ∀ packet ∈ packets, Sized packet)
    {c : Capture} {due : UInt8} (hdue : c.sequence = Sequence.eightBit due 0x10) :
    (∃ last, packets.foldlM takeIn c = .ok last ∧
      ∃ next, (packets.map numberOf).foldlM following due = some next) ∨
    (∃ expected actual, packets.foldlM takeIn c = .error (.failed (.sequenceMismatch expected actual)) ∧
      (packets.map numberOf).foldlM following due = none) ∨
    packets.foldlM takeIn c = .error .overflow := by
  induction packets generalizing c due with
  | nil => exact .inl ⟨c, rfl, due, rfl⟩
  | cons packet rest ih =>
    rw [List.forall_mem_cons] at hsized
    rw [List.foldlM_cons, List.map_cons, List.foldlM_cons, hsized.1.takeIn_eq,
      number_eq_following hdue]
    cases following due (numberOf packet) with
    | none => exact .inr (.inl ⟨due, numberOf packet, rfl, rfl⟩)
    | some next =>
      dsimp only
      cases hwords : (carried packet).foldlM word
          { c with sequence := Sequence.eightBit next 0x10 } with
      | none => exact .inr (.inr rfl)
      | some taken => exact ih hsized.2 (foldlM_word_keeps_sequence hwords)

theorem fed_cases {packets : List Report} (hsized : ∀ packet ∈ packets, Sized packet) :
    (∃ last, packets.foldlM takeIn {} = .ok last ∧ Numbered (packets.map numberOf)) ∨
    (∃ due actual, packets.foldlM takeIn {} = .error (.failed (.sequenceMismatch due actual)) ∧
      ¬ Numbered (packets.map numberOf)) ∨
    packets.foldlM takeIn {} = .error .overflow := by
  have hdue : ({} : Capture).sequence = Sequence.eightBit 0 0x10 := rfl
  rcases foldlM_takeIn_cases hsized hdue with ⟨last, hok, hnext⟩ | ⟨due, actual, herror, hnone⟩ | herror
  · exact .inl ⟨last, hok, (numbered_iff _).2 hnext⟩
  · refine .inr (.inl ⟨due, actual, herror, ?_⟩)
    rw [numbered_iff, hnone]
    exact nofun
  · exact .inr (.inr herror)

/-- A space leaves its machine word only where a capture would long have ended. -/
theorem exists_over_of_overflow {packets : List Report} {c : Capture}
    (h : packets.foldlM takeIn c = .error .overflow) :
    ∃ k < packets.length, ∃ last, (packets.take k).foldlM takeIn c = .ok last ∧ last.isOver = true := by
  induction packets generalizing c with
  | nil => cases h
  | cons packet rest ih =>
    by_cases hover : c.isOver = true
    · exact ⟨0, Nat.succ_pos _, c, rfl, hover⟩
    have hbound := takeIn_bound (gap_lt_of_not_isOver hover) packet
    rw [List.foldlM_cons] at h
    cases htaken : c.takeIn packet with
    | error halt =>
      rw [htaken] at h
      obtain rfl : halt = .overflow := Except.error.inj h
      exact absurd htaken hbound.1
    | ok next =>
      rw [htaken] at h
      obtain ⟨k, hk, last, hlast, hlastover⟩ := ih h
      refine ⟨k + 1, Nat.succ_lt_succ hk, last, ?_, hlastover⟩
      rw [List.take_succ_cons, List.foldlM_cons, htaken]
      exact hlast

end Capture

namespace Signal

open Exchange Capture

/-- The run of a capture fails for a number just where the packets that it heard are not numbered. -/
theorem capture_mismatch_iff (code : UInt8) (patience : Nat) (device : Device σ) (state : σ) :
    let run := (capture code patience).run.run device state
    let packets := packetsIn code (run.trace.filterMap Step.received?)
    (∀ packet ∈ packets, Sized packet) →
    ((∃ due actual, run.result = .error (.failed (.protocol (.sequenceMismatch due actual)))) ↔
      ¬ Numbered (packets.map numberOf)) := by
  intro run packets hsized
  obtain ⟨taken, last, ending, hheard, hends, hpackets⟩ :=
    exists_heard_of_run code patience device state
  have htaken := hheard.foldlM_takeIn
  rcases hends.packetsIn_eq with ⟨hnone, _, hother⟩ | ⟨packet, halt, hone, hopen, hrefused, hresult⟩
  · have heq : packets = taken := by rw [← List.append_nil taken, ← hnone]; exact hpackets
    rw [heq] at hsized ⊢
    rcases fed_cases hsized with ⟨_, _, hnumbered⟩ | ⟨_, _, herror, _⟩ | herror
    · exact iff_of_false (fun ⟨due, actual, h⟩ => hother due actual h) (fun h => h hnumbered)
    · exact nomatch htaken.symm.trans herror
    · exact nomatch htaken.symm.trans herror
  · have heq : packets = taken ++ [packet] := by rw [← hone]; exact hpackets
    rw [heq] at hsized ⊢
    have hfed : (taken ++ [packet]).foldlM takeIn {} = .error halt := by
      rw [List.foldlM_append, htaken]
      change [packet].foldlM takeIn last = _
      rw [List.foldlM_cons, hrefused]
      rfl
    have hopen : ¬ last.isOver = true := by rw [hopen]; exact Bool.false_ne_true
    have hbound := (takeIn_bound (gap_lt_of_not_isOver hopen) packet).1
    rcases fed_cases hsized with ⟨_, hok, _⟩ | ⟨due, actual, herror, hnot⟩ | herror
    · exact nomatch hfed.symm.trans hok
    · obtain rfl := Except.error.inj (hfed.symm.trans herror)
      exact iff_of_true ⟨due, actual, hresult⟩ hnot
    · obtain rfl := Except.error.inj (hfed.symm.trans herror)
      exact absurd hrefused hbound

end Signal

namespace Capture

/-! ## Silence -/

/-- The words of so many marks that are none, each with as long a space as a word can tell. -/
def silence (count : Nat) : List UInt32 :=
  (List.replicate count [0, 65535]).flatten

def silent (place : Nat) : Report :=
  packetOf (UInt8.ofNat (16 * place)) (List.replicate 15 [0, 65535]).flatten

theorem sized_silent (place : Nat) : Sized (silent place) := by
  have hlast : (silent place).getD 63 0 = 62 := by rfl
  refine ⟨Nat.le_refl 64, ?_, ?_⟩
  · rw [hlast]
    rfl
  · rw [hlast]
    decide

theorem carried_silent (place : Nat) : carried (silent place) = silence 15 := by
  rw [← (sized_silent place).wordsOf_eq]
  rfl

theorem silence_add (count more : Nat) : silence (count + more) = silence count ++ silence more := by
  rw [silence, silence, silence, ← List.flatten_append, List.replicate_append_replicate]

theorem flatMap_carried_silent (count : Nat) :
    ((List.range count).map silent).flatMap carried = silence (15 * count) := by
  induction count with
  | zero => rfl
  | succ count ih =>
    rw [List.range_succ, List.map_append, List.flatMap_append, ih, List.map_singleton,
      List.flatMap_singleton, carried_silent, Nat.mul_succ, silence_add]

theorem numbered_silent (count : Nat) : Numbered (((List.range count).map silent).map numberOf) := by
  refine ⟨none, nofun, fun place n hn => ?_⟩
  have hnumber : n = UInt8.ofNat (16 * place) := by
    rw [List.map_map, List.getElem?_map, Option.map_eq_some_iff] at hn
    obtain ⟨i, hi, rfl⟩ := hn
    obtain ⟨hlt, rfl⟩ := List.getElem?_eq_some_iff.1 hi
    rw [List.getElem_range]
    rfl
  rw [hnumber]
  exact UInt8.toNat_ofNat'

section Opened

variable {c : Capture} (hopened : 3 ≤ c.words)
include hopened

theorem word_no_mark (heven : c.words % 2 = 0) :
    c.word 0 = some { c with mark := 0, words := c.words + 1 } := by
  have hplace : c.words ≠ 0 ∧ c.words ≠ 1 ∧ c.words ≠ 2 := by omega
  simp [word, place, hplace, heven]

theorem word_space (hodd : c.words % 2 = 1) (hmark : c.mark = 0) (t : UInt32) :
    c.word t = (checkedSum c.gap t).map fun gap => { c with gap, words := c.words + 1 } := by
  have hplace : c.words ≠ 0 ∧ c.words ≠ 1 ∧ c.words ≠ 2 := by omega
  simp [word, place, hplace, hodd, hmark, Function.comp_def]

theorem foldlM_word_pair (heven : c.words % 2 = 0) (t : UInt32) :
    [0, t].foldlM word c =
      (checkedSum c.gap t).map fun gap => { c with gap, mark := 0, words := c.words + 2 } := by
  rw [List.foldlM_cons, word_no_mark hopened heven]
  change List.foldlM word _ [t] = _
  rw [List.foldlM_cons, word_space (by dsimp only; omega) (by dsimp only; omega) rfl]
  dsimp only
  cases checkedSum c.gap t <;> rfl

end Opened

/-- The space leaves its machine word behind enough silence. -/
theorem foldlM_word_silence {c : Capture} (hopened : 3 ≤ c.words) (heven : c.words % 2 = 0)
    {count : Nat} (hlong : 0x100000000 ≤ c.gap.toNat + count * 65535) :
    (silence count).foldlM word c = none := by
  induction count generalizing c with
  | zero =>
    have := c.gap.toNat_lt
    omega
  | succ count ih =>
    have hfirst : silence (count + 1) = [0, 65535] ++ silence count := rfl
    rw [hfirst, List.foldlM_append, foldlM_word_pair hopened heven]
    cases hgap : checkedSum c.gap 65535 with
    | none => rfl
    | some gap =>
      have hvalue : gap.toNat = c.gap.toNat + 65535 := checkedSum_eq_some hgap
      exact ih (by dsimp only; omega) (by dsimp only; omega) (by dsimp only; omega)

/-- Packets of the right size are taken in just where they are numbered as a capture numbers them; others
are refused for a number. A sum that leaves its machine word comes before either, but only behind packets
with which a capture is over: what a capture hears is refused for a number just where it is not numbered
so. -/
theorem taken_iff_numbered (packets : List Report) (hsized : ∀ packet ∈ packets, Sized packet) :
    let fed := packets.foldlM takeIn ({} : Capture)
    let numbers := packets.map numberOf
    (fed ≠ .error .overflow → ((∃ last, fed = .ok last) ↔ Numbered numbers) ∧
      (¬ Numbered numbers →
        ∃ due actual, fed = .error (.failed (.sequenceMismatch due actual)))) ∧
    (fed = .error .overflow → ∃ k < packets.length, ∃ last,
      (packets.take k).foldlM takeIn {} = .ok last ∧ last.isOver = true) ∧
    ∀ (code : UInt8) (patience : Nat) {σ : Type} (device : Device σ) (state : σ),
      let run := (Signal.capture code patience).run.run device state
      Signal.packetsIn code (run.trace.filterMap Step.received?) = packets →
      ((∃ due actual, run.result = .error (.failed (.protocol (.sequenceMismatch due actual)))) ↔
        ¬ Numbered numbers) := by
  intro fed numbers
  refine ⟨fun hroom => ?_, exists_over_of_overflow, ?_⟩
  · rcases fed_cases hsized with ⟨last, hok, hnumbered⟩ | ⟨due, actual, herror, hnot⟩ | herror
    · exact ⟨iff_of_true ⟨last, hok⟩ hnumbered, fun h => absurd hnumbered h⟩
    · refine ⟨iff_of_false (fun ⟨last, hok⟩ => ?_) hnot, fun _ => ⟨due, actual, herror⟩⟩
      exact nomatch hok.symm.trans herror
    · exact absurd herror hroom
  · intro code patience σ device state run hpackets
    have hmismatch := Signal.capture_mismatch_iff code patience device state
    dsimp only at hmismatch
    rw [hpackets] at hmismatch
    exact hmismatch hsized

/-- So many packets of silence are numbered as a capture numbers them, but not taken in: their spaces
add up to more than a machine word. -/
theorem silent_packets_overflow :
    let packets := (List.range 4370).map silent
    (∀ packet ∈ packets, Sized packet) ∧ Numbered (packets.map numberOf) ∧
      packets.foldlM takeIn {} = .error .overflow := by
  intro packets
  have hsized : ∀ packet ∈ packets, Sized packet := by
    intro packet hpacket
    obtain ⟨place, -, rfl⟩ := List.mem_map.1 hpacket
    exact sized_silent place
  have hnumbered := numbered_silent 4370
  refine ⟨hsized, hnumbered, ?_⟩
  rcases fed_cases hsized with ⟨last, hok, -⟩ | ⟨_, _, -, hnot⟩ | herror
  · have hwords := foldlM_word_of_takeIn hok
    have hopening : (silence 2).foldlM word {} =
        some ⟨.eightBit 0 0x10, 4, 65535, 0, 0, [65535]⟩ := rfl
    rw [flatMap_carried_silent, silence_add 2 65548, List.foldlM_append, hopening, Option.bind_eq_bind,
      Option.bind_some, foldlM_word_silence (by decide) (by decide) (by decide)] at hwords
    exact nomatch hwords
  · exact absurd hnumbered hnot
  · exact herror

/-- The second of three packets has the irregular number. -/
theorem irregular_packets_numbered :
    let packets := [packetOf 0x00 [0, 26, 1], packetOf 0x1F [600, 26], packetOf 0x2F [700, 26]]
    (∀ packet ∈ packets, Sized packet) ∧ (∃ last, packets.foldlM takeIn {} = .ok last) ∧
      Numbered (packets.map numberOf) := by
  intro packets
  have hsized : ∀ packet ∈ packets, Sized packet := by decide
  have hok : ∃ last, packets.foldlM takeIn {} = .ok last := ⟨_, rfl⟩
  have hroom : packets.foldlM takeIn {} ≠ .error .overflow := by
    obtain ⟨last, hlast⟩ := hok
    rw [hlast]
    exact nofun
  exact ⟨hsized, hok, ((taken_iff_numbered packets hsized).1 hroom).1.1 hok⟩

end Capture

end UniversalRemote
