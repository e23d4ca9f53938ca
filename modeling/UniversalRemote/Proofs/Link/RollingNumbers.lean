import Mathlib.Data.List.Induction
import UniversalRemote.Sequence
/-!
# Rolling numbers in order

Received numbers are held against a counter one after another, up to the first that disagrees. The
counter behind any count of numbers has a closed form (`behind`), and the numbers that it accepts
are the longest run, from the first one on, in which each is the one due at its place
(`expect_longest`).
-/

namespace UniversalRemote.Sequence

/-- The number due at a place, counted from the one that a counter begins at. -/
def dueAt (start step : UInt8) (modulus place : Nat) : Nat :=
  (start.toNat + place * step.toNat) % modulus

/-- Each number is the one due at its place. -/
def InOrder (start step : UInt8) (modulus : Nat) (numbers : List UInt8) : Prop :=
  ∀ place number, numbers[place]? = some number → number.toNat = dueAt start step modulus place

section Counter

variable {start step : UInt8} {modulus : Nat} {numbers : List UInt8} {number : UInt8}

theorem inOrder_nil : InOrder start step modulus [] :=
  fun _ _ h => nomatch h

theorem InOrder.of_append {rest : List UInt8} (h : InOrder start step modulus (numbers ++ rest)) :
    InOrder start step modulus numbers := by
  intro place number hplace
  refine h place number ?_
  rw [List.getElem?_append_left (List.getElem?_eq_some_iff.1 hplace).1, hplace]

theorem inOrder_concat : InOrder start step modulus (numbers ++ [number]) ↔
    InOrder start step modulus numbers ∧
      number.toNat = dueAt start step modulus numbers.length := by
  constructor
  · exact fun h => ⟨h.of_append, h _ _ List.getElem?_concat_length⟩
  · rintro ⟨hnumbers, hlast⟩ place other hplace
    have hlength := (List.getElem?_eq_some_iff.1 hplace).1
    rw [List.length_append, List.length_singleton] at hlength
    by_cases hbefore : place < numbers.length
    · rw [List.getElem?_append_left hbefore] at hplace
      exact hnumbers place other hplace
    · obtain rfl : place = numbers.length := by omega
      rw [List.getElem?_concat_length] at hplace
      exact Option.some.inj hplace ▸ hlast

/-! ## The counter behind numbers -/

def behind (start step : UInt8) (hpos : 0 < modulus) (count : Nat) : Sequence :=
  ⟨UInt8.ofNat (dueAt start step modulus count), step, modulus, hpos⟩

variable (hpos : 0 < modulus)

theorem begin?_eq : begin? start step modulus = some (behind start step hpos 0) := by
  rw [begin?, dif_pos hpos, behind, dueAt, Nat.zero_mul, Nat.add_zero]

theorem toNat_current_behind (hle : modulus ≤ 256) (count : Nat) :
    (behind start step hpos count).current.toNat = dueAt start step modulus count := by
  -- Only numbers below the modulus are due, and these fit a byte.
  have hdue : dueAt start step modulus count < modulus := Nat.mod_lt _ hpos
  rw [behind, UInt8.toNat_ofNat', Nat.mod_eq_of_lt (by omega)]

theorem advance_behind (hle : modulus ≤ 256) (count : Nat) :
    (behind start step hpos count).advance = behind start step hpos (count + 1) := by
  have hnext : (dueAt start step modulus count + step.toNat) % modulus =
      dueAt start step modulus (count + 1) := by
    calc (dueAt start step modulus count + step.toNat) % modulus
        = (start.toNat + count * step.toNat + step.toNat) % modulus := Nat.mod_add_mod ..
      _ = (start.toNat + (count + 1) * step.toNat) % modulus := by
          rw [Nat.succ_mul, Nat.add_assoc]
  rw [advance, skip, toNat_current_behind hpos hle]
  simp only [behind, hnext]

/-! ## One number after another -/

theorem run_forM_append {s t : Sequence} (h : (numbers.forM expect).run.run s = (.ok (), t))
    (rest : List UInt8) :
    ((numbers ++ rest).forM expect).run.run s = (rest.forM expect).run.run t := by
  rw [List.forM_eq_forM] at h ⊢
  rw [List.forM_append, ExceptT.run_bind, StateT.run_bind, h]
  rfl

theorem run_forM_cons (number : UInt8) (rest : List UInt8) (s : Sequence) :
    ((number :: rest).forM expect).run.run s =
      if number = s.current then (rest.forM expect).run.run s.advance
      else (.error (.sequenceMismatch s.current number), s) := by
  rw [List.forM_eq_forM, List.forM_cons, ExceptT.run_bind, StateT.run_bind, run_expect]
  split
  · rfl
  · rfl

theorem InOrder.run_forM (h : InOrder start step modulus numbers) (hle : modulus ≤ 256) :
    (numbers.forM expect).run.run (behind start step hpos 0) =
      (.ok (), behind start step hpos numbers.length) := by
  -- The last number comes off first: in front of it the counter has its closed form.
  induction numbers using List.reverseRecOn with
  | nil => rfl
  | append_singleton numbers number ih =>
    obtain ⟨hnumbers, hlast⟩ := inOrder_concat.1 h
    have hcurrent : number = (behind start step hpos numbers.length).current := by
      rw [← UInt8.toNat_inj, toNat_current_behind hpos hle, hlast]
    rw [run_forM_append (ih hnumbers), run_forM_cons, if_pos hcurrent, advance_behind hpos hle,
      List.length_append, List.length_singleton]
    rfl

/-- The first number out of order is refused, and nothing behind it is looked at. -/
theorem InOrder.run_forM_deviating (h : InOrder start step modulus numbers) (hle : modulus ≤ 256)
    (hnumber : number.toNat ≠ dueAt start step modulus numbers.length) (rest : List UInt8) :
    let left := behind start step hpos numbers.length
    ((numbers ++ number :: rest).forM expect).run.run (behind start step hpos 0) =
      (.error (.sequenceMismatch left.current number), left) := by
  intro left
  have hcurrent : number ≠ left.current := by
    rw [ne_eq, ← UInt8.toNat_inj, toNat_current_behind hpos hle]
    exact hnumber
  rw [run_forM_append (h.run_forM hpos hle), run_forM_cons, if_neg hcurrent]

/-! ## The longest run in order -/

/-- Numbers are in order up to a first one that deviates, if any does. -/
theorem exists_inOrder (start step : UInt8) (modulus : Nat) (received : List UInt8) :
    ∃ numbers rest, received = numbers ++ rest ∧ InOrder start step modulus numbers ∧
      ∀ number, rest.head? = some number →
        number.toNat ≠ dueAt start step modulus numbers.length := by
  induction received using List.reverseRecOn with
  | nil => exact ⟨[], [], rfl, inOrder_nil, nofun⟩
  | append_singleton received last ih =>
    obtain ⟨numbers, rest, rfl, hnumbers, hrest⟩ := ih
    cases rest with
    | cons number rest =>
      -- Once a number has deviated, it does not matter what comes behind it.
      exact ⟨numbers, number :: (rest ++ [last]), by simp, hnumbers, hrest⟩
    | nil =>
      rw [List.append_nil]
      by_cases hlast : last.toNat = dueAt start step modulus numbers.length
      · exact ⟨numbers ++ [last], [], by simp, inOrder_concat.2 ⟨hnumbers, hlast⟩, nofun⟩
      · refine ⟨numbers, [last], rfl, hnumbers, ?_⟩
        rintro _ ⟨⟩
        exact hlast

/-- No run in order goes on beyond a number that deviates. -/
theorem InOrder.prefix_of_deviating {other rest : List UInt8}
    (h : InOrder start step modulus other) (hother : other <+: numbers ++ rest)
    (hrest : ∀ number, rest.head? = some number →
      number.toNat ≠ dueAt start step modulus numbers.length) : other <+: numbers := by
  rcases List.prefix_or_prefix_of_prefix hother (List.prefix_append numbers rest) with
    hshort | ⟨more, rfl⟩
  · exact hshort
  have hmore := (List.prefix_append_right_inj numbers).1 hother
  cases more with
  | nil => simp
  | cons number more =>
    obtain ⟨later, rfl⟩ := hmore
    refine absurd (h numbers.length number ?_) (hrest number rfl)
    rw [List.getElem?_append_right (Nat.le_refl _), Nat.sub_self]
    rfl

theorem run_forM_eq_ok_iff (hle : modulus ≤ 256) (numbers : List UInt8) :
    ((numbers.forM expect).run.run (behind start step hpos 0)).1 = .ok () ↔
      InOrder start step modulus numbers := by
  refine ⟨fun h => ?_, fun h => by rw [h.run_forM hpos hle]⟩
  obtain ⟨accepted, rest, rfl, haccepted, hrest⟩ := exists_inOrder start step modulus numbers
  cases rest with
  | nil => rwa [List.append_nil]
  | cons number rest =>
    rw [haccepted.run_forM_deviating hpos hle (hrest number rfl)] at h
    cases h

end Counter

/-- Numbers are accepted from a counter's beginning on exactly if each is the one due at its place.
Of any that are received, it accepts the longest run that is so from the first one on; a number that
deviates behind them is reported with the one that is due there, and leaves the counter as they
did. -/
theorem expect_longest (start step : UInt8) {modulus : Nat} (hpos : 0 < modulus)
    (hle : modulus ≤ 256) (received : List UInt8) :
    ∃ s, begin? start step modulus = some s ∧
      (∀ numbers, ((numbers.forM expect).run.run s).1 = .ok () ↔
        InOrder start step modulus numbers) ∧
      ∃ accepted due, accepted <+: received ∧ InOrder start step modulus accepted ∧
        (∀ other, other <+: received → InOrder start step modulus other → other <+: accepted) ∧
        due.toNat = dueAt start step modulus accepted.length ∧
        let left : Sequence := ⟨due, step, modulus, hpos⟩
        (accepted.forM expect).run.run s = (.ok (), left) ∧
          (received.forM expect).run.run s =
            match received[accepted.length]? with
            | none => (.ok (), left)
            | some number => (.error (.sequenceMismatch due number), left) := by
  obtain ⟨accepted, rest, rfl, haccepted, hrest⟩ := exists_inOrder start step modulus received
  refine ⟨behind start step hpos 0, begin?_eq hpos, run_forM_eq_ok_iff hpos hle, accepted,
    (behind start step hpos accepted.length).current, List.prefix_append _ _, haccepted,
    fun other hother h => h.prefix_of_deviating hother hrest, toNat_current_behind hpos hle _,
    haccepted.run_forM hpos hle, ?_⟩
  cases rest with
  | nil =>
    rw [List.append_nil, List.getElem?_eq_none (Nat.le_refl _)]
    exact haccepted.run_forM hpos hle
  | cons number rest =>
    rw [List.getElem?_append_right (Nat.le_refl _), Nat.sub_self]
    exact haccepted.run_forM_deviating hpos hle (hrest number rfl) rest

/-- Numbers below a hundred, begun at one above it, and one of them told twice. -/
theorem expect_longest_repeated :
    let received : List UInt8 := [50, 27, 4, 4, 81]
    let left : Sequence := { current := 81, step := 77, modulus := 100 }
    0 < 100 ∧ 100 ≤ 256 ∧ ∃ s, begin? 250 77 100 = some s ∧
      InOrder 250 77 100 [50, 27, 4] ∧
      (received.forM expect).run.run s = (.error (.sequenceMismatch 81 4), left) := by
  intro received left
  obtain ⟨s, hbegin, -, accepted, due, haccepted, horder, hlongest, hdue, -, hreceived⟩ :=
    expect_longest 250 77 (by decide : 0 < 100) (by decide) received
  have hthree : InOrder 250 77 100 [50, 27, 4] := by
    intro place number hplace
    match place with
    | 0 | 1 | 2 => cases hplace; rfl
    | _ + 3 => cases hplace
  have hfirst : accepted.length = 3 := by
    have hle := (hlongest _ ⟨[4, 81], rfl⟩ hthree).length_le
    by_contra hne
    have hfour : accepted[3]? = some 4 := by
      rw [List.prefix_iff_eq_take.1 haccepted, List.getElem?_take_of_lt (by simp at hle; omega)]
      rfl
    exact absurd (horder 3 4 hfour) (by decide)
  rw [hfirst] at hdue hreceived
  obtain rfl : due = 81 := UInt8.toNat_inj.1 hdue
  exact ⟨by decide, by decide, s, hbegin, hthree, hreceived⟩

end UniversalRemote.Sequence
