import Mathlib.Data.List.GetD
import UniversalRemote.Proofs.Flash.Tiling
/-!
# Contents of flash memory

A flash memory as a function from addresses to bytes. Programming only clears bits, so bytes come
out as written exactly where the memory was erased before.
-/

namespace UniversalRemote

abbrev Memory := Nat → UInt8

instance (s : Sector) (address : Nat) : Decidable (s.Holds address) :=
  inferInstanceAs (Decidable (_ ∧ _))

namespace Memory

def slice (m : Memory) (address length : Nat) : List UInt8 :=
  (List.range' address length).map m

/-- The memory once data has been programmed at an address: only bits that it has clear become so. -/
def program (m : Memory) (address : Nat) (data : List UInt8) : Memory := fun a =>
  if address ≤ a then m a &&& data.getD (a - address) 0xFF else m a

def erase (m : Memory) (sectors : List Sector) : Memory := fun a =>
  if ∃ s ∈ sectors, s.Holds a then 0xFF else m a

/-! ## Slices -/

variable (m : Memory)

@[simp] theorem length_slice (address length : Nat) : (m.slice address length).length = length := by
  simp [slice]

theorem slice_append (address length more : Nat) :
    m.slice address length ++ m.slice (address + length) more = m.slice address (length + more) := by
  rw [slice, slice, slice, ← List.map_append, List.range'_append_1]

theorem take_slice {address length n : Nat} (h : n ≤ length) :
    (m.slice address length).take n = m.slice address n := by
  rw [slice, ← List.map_take, List.take_range'_of_length_ge h, slice]

theorem drop_slice (address length n : Nat) :
    (m.slice address length).drop n = m.slice (address + n) (length - n) := by
  rw [slice, ← List.map_drop, List.drop_range', Nat.mul_one, slice]

/-! ## Programming and erasing -/

theorem program_nil (address : Nat) : m.program address [] = m := by
  funext a
  simp only [program, List.getD_nil]
  split
  · exact UInt8.and_neg_one
  · rfl

theorem program_of_outside {address a : Nat} {data : List UInt8}
    (h : a < address ∨ address + data.length ≤ a) : m.program address data a = m a := by
  unfold program
  split
  · rw [List.getD_eq_default _ _ (by omega)]
    exact UInt8.and_neg_one
  · rfl

/-- Data programmed in two goes, one behind the other, is data programmed at once. -/
theorem program_append (address : Nat) (first rest : List UInt8) :
    (m.program address first).program (address + first.length) rest =
      m.program address (first ++ rest) := by
  funext a
  by_cases hrest : address + first.length ≤ a
  · have hfirst : m.program address first a = m a := program_of_outside m (.inr hrest)
    simp only [program, hrest, if_true] at hfirst ⊢
    rw [hfirst, if_pos (by omega), List.getD_append_right _ _ _ _ (by omega), Nat.sub_sub]
  · simp only [program, hrest, if_false]
    by_cases hin : address ≤ a
    · rw [if_pos hin, if_pos hin, List.getD_append _ _ _ _ (by omega)]
    · rw [if_neg hin, if_neg hin]

/-- Where a memory is erased, it takes on what is programmed. -/
theorem slice_program {address : Nat} {data : List UInt8}
    (h : ∀ a, address ≤ a → a < address + data.length → m a = 0xFF) :
    (m.program address data).slice address data.length = data := by
  refine List.ext_getElem (by simp) fun i hi hdata => ?_
  have herased : m (address + i) = 0xFF := h _ (by omega) (by omega)
  simp only [slice, List.getElem_map, List.getElem_range', Nat.one_mul, program]
  rw [if_pos (by omega), herased, Nat.add_sub_cancel_left, List.getD_eq_getElem _ _ hdata]
  exact UInt8.neg_one_and

theorem erase_nil : m.erase [] = m := by
  funext a
  simp [erase]

theorem erase_cons (s : Sector) (rest : List Sector) :
    (m.erase [s]).erase rest = m.erase (s :: rest) := by
  funext a
  by_cases hs : s.Holds a <;> by_cases hrest : ∃ t ∈ rest, t.Holds a <;> simp [erase, hs, hrest]

theorem erase_of_mem {sectors : List Sector} {s : Sector} {a : Nat} (hs : s ∈ sectors)
    (ha : s.Holds a) : m.erase sectors a = 0xFF :=
  if_pos ⟨s, hs, ha⟩

theorem erase_of_not_mem {sectors : List Sector} {a : Nat} (h : ∀ s ∈ sectors, ¬ s.Holds a) :
    m.erase sectors a = m a :=
  if_neg fun ⟨s, hs, ha⟩ => h s hs ha

end Memory

end UniversalRemote
