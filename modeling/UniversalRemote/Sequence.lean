import UniversalRemote.Error
/-!
# Rolling sequence numbers

A counter that steps by a fixed amount and starts over at its modulus. A receiver holds it against
the numbers that packets carry. `run_expect` says that the expected number moves it on and that any
other leaves it where it is.
-/

namespace UniversalRemote

structure Sequence where
  current : UInt8
  step : UInt8
  modulus : Nat
  modulus_pos : 0 < modulus := by decide
  deriving DecidableEq, Repr

namespace Sequence

/-- The counter that begins at `start`, reduced by the modulus; there is none for modulus zero. -/
def begin? (start step : UInt8) (modulus : Nat) : Option Sequence :=
  if h : 0 < modulus then some ⟨UInt8.ofNat (start.toNat % modulus), step, modulus, h⟩ else none

def eightBit (start step : UInt8) : Sequence :=
  { current := start, step, modulus := 256 }

/-- The counter of the six low bits that counts by one. -/
def sixBit (start : UInt8) : Sequence :=
  { current := UInt8.ofNat (start.toNat % 64), step := 1, modulus := 64 }

theorem begin?_eightBit (start step : UInt8) :
    begin? start step 256 = some (eightBit start step) := by
  have hstart : start.toNat % 256 = start.toNat := Nat.mod_eq_of_lt start.toNat_lt
  simp [begin?, eightBit, hstart]

theorem begin?_sixBit (start : UInt8) : begin? start 1 64 = some (sixBit start) := rfl

def skip (s : Sequence) (amount : UInt8) : Sequence :=
  { s with current := UInt8.ofNat ((s.current.toNat + amount.toNat) % s.modulus) }

def advance (s : Sequence) : Sequence :=
  s.skip s.step

/-- Holds a received number against the counter, which moves on if they agree. -/
def expect (actual : UInt8) : ExceptT ProtocolError (StateM Sequence) Unit := do
  let due := (← get).current
  if actual ≠ due then throw (.sequenceMismatch due actual)
  modify advance

/-- The counter behind a received number that agrees with it. -/
def accept (s : Sequence) (actual : UInt8) : Except ProtocolError Sequence :=
  match (expect actual).run.run s with
  | (.ok (), after) => .ok after
  | (.error cause, _) => .error cause

@[simp] theorem modulus_skip (s : Sequence) (amount : UInt8) :
    (s.skip amount).modulus = s.modulus := rfl

@[simp] theorem step_skip (s : Sequence) (amount : UInt8) : (s.skip amount).step = s.step := rfl

theorem run_expect (s : Sequence) (actual : UInt8) : (expect actual).run.run s =
    if actual = s.current then (.ok (), s.advance)
    else (.error (.sequenceMismatch s.current actual), s) := by
  have hget (next : Sequence → ExceptT ProtocolError (StateM Sequence) Unit) :
      (get >>= next).run.run s = (next s).run.run s := rfl
  refine (hget _).trans ?_
  by_cases h : actual = s.current
  · simp only [if_pos h, if_neg (not_not_intro h)]
    rfl
  · simp only [if_neg h, if_pos h]
    rfl

theorem accept_of_ne {s : Sequence} {actual : UInt8} (h : actual ≠ s.current) :
    s.accept actual = .error (.sequenceMismatch s.current actual) := by
  rw [accept, run_expect, if_neg h]

theorem accept_eq_ok_iff {s t : Sequence} {actual : UInt8} :
    s.accept actual = .ok t ↔ actual = s.current ∧ s.advance = t := by
  by_cases h : actual = s.current
  · rw [accept, run_expect, if_pos h]
    simp [h]
  · rw [accept_of_ne h]
    simp [h]

theorem skip_eightBit (number step amount : UInt8) :
    (eightBit number step).skip amount = eightBit (number + amount) step := by
  have hcurrent : UInt8.ofNat ((number.toNat + amount.toNat) % 256) = number + amount := by
    apply UInt8.toNat_inj.1
    simp [UInt8.toNat_add]
  simp only [eightBit, skip, hcurrent]

/-- The counter of the six low bits behind so many packets. -/
theorem current_sixBit_ofNat (n : Nat) :
    (sixBit (UInt8.ofNat n)).current = UInt8.ofNat (n % 64) := by
  have hmod : n % 256 % 64 = n % 64 := Nat.mod_mod_of_dvd n (by decide)
  simp only [sixBit, UInt8.toNat_ofNat', Nat.reducePow, hmod]

theorem advance_sixBit_ofNat (n : Nat) :
    (sixBit (UInt8.ofNat n)).advance = sixBit (UInt8.ofNat (n + 1)) := by
  have hmod : (n % 256 % 64 % 256 + 1) % 64 = (n + 1) % 256 % 64 := by omega
  simp only [advance, skip, sixBit, UInt8.toNat_ofNat', Nat.reducePow]
  rw [← hmod]
  rfl

end Sequence

end UniversalRemote
