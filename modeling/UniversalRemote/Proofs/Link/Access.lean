import UniversalRemote.Chunk
import UniversalRemote.Link.Program
import UniversalRemote.Sequence
import UniversalRemote.Word
/-!
# Access within bounds

Reports are taken apart by places in them, and the places come out of reports. The accesses and the
arithmetic here are absent where they would lead beyond what there is, and an exchange that meets
such an absence ends as one that leaves a machine word does.
-/

namespace UniversalRemote

/-- The elements from one place of a list up to another, where there are such. -/
def slice? (l : List α) (first stop : Nat) : Option (List α) :=
  if first ≤ stop ∧ stop ≤ l.length then some ((l.take stop).drop first) else none

def difference? (a b : Nat) : Option Nat :=
  if b ≤ a then some (a - b) else none

def byteSum? (a b : UInt8) : Option UInt8 :=
  if a.toNat + b.toNat < 0x100 then some (a + b) else none

def byteDifference? (a b : UInt8) : Option UInt8 :=
  if b ≤ a then some (a - b) else none

def chunks? (size : Nat) (l : List α) : Option (List (List α)) :=
  if 0 < size then some (chunks size l) else none

def Sequence.skip? (s : Sequence) (amount : UInt8) : Option Sequence := do
  let sum ← checkedSum16 s.current.toUInt16 amount.toUInt16
  if s.modulus = 0 then none
  else return { s with current := UInt8.ofNat (sum.toNat % s.modulus) }

section Lists

variable {l : List α} {first stop : Nat}

theorem slice?_eq (hfirst : first ≤ stop) (hstop : stop ≤ l.length) :
    slice? l first stop = some ((l.take stop).drop first) :=
  if_pos ⟨hfirst, hstop⟩

theorem slice?_add {count : Nat} (h : first + count ≤ l.length) :
    slice? l first (first + count) = some ((l.drop first).take count) := by
  rw [slice?_eq (Nat.le_add_right _ _) h, List.drop_take, Nat.add_sub_cancel_left]

theorem slice?_zero (h : stop ≤ l.length) : slice? l 0 stop = some (l.take stop) :=
  slice?_eq (Nat.zero_le stop) h

theorem slice?_length (h : first ≤ l.length) : slice? l first l.length = some (l.drop first) := by
  rw [slice?_eq h (Nat.le_refl _), List.take_length]

theorem getElem?_eq_getD (h : first < l.length) (a : α) : l[first]? = some (l.getD first a) := by
  rw [List.getD_eq_getElem?_getD, List.getElem?_eq_getElem h]
  rfl

theorem mapM_eq_map {f : α → Option β} {g : α → β} (h : ∀ a ∈ l, f a = some (g a)) :
    l.mapM f = some (l.map g) := by
  induction l with
  | nil => rfl
  | cons a l ih =>
    have hrest := ih fun b hb => h b (List.mem_cons_of_mem a hb)
    rw [List.mapM_cons, h a List.mem_cons_self, hrest]
    rfl

theorem chunks?_eq {size : Nat} (h : 0 < size) : chunks? size l = some (chunks size l) :=
  if_pos h

end Lists

theorem difference?_eq {a b : Nat} (h : b ≤ a) : difference? a b = some (a - b) :=
  if_pos h

theorem Sequence.skip?_eq (s : Sequence) (amount : UInt8) : s.skip? amount = some (s.skip amount) := by
  have hcurrent := s.current.toNat_lt
  have hamount := amount.toNat_lt
  have hsum : s.current.toUInt16.toNat + amount.toUInt16.toNat < 0x10000 := by
    rw [UInt8.toNat_toUInt16, UInt8.toNat_toUInt16]
    omega
  have hnat : (s.current.toUInt16 + amount.toUInt16).toNat = s.current.toNat + amount.toNat := by
    rw [UInt16.toNat_add, Nat.mod_eq_of_lt hsum, UInt8.toNat_toUInt16, UInt8.toNat_toUInt16]
  unfold skip? checkedSum16
  rw [if_pos hsum]
  dsimp only [Option.bind_eq_bind, Option.bind_some]
  rw [if_neg (Nat.ne_of_gt s.modulus_pos), hnat]
  rfl

namespace Exchange

/-- The answer of a computation that does no traffic but may lead out of bounds. -/
def checked (answer : Option (Except ProtocolError α)) : Exchange RemoteError α := do
  check (← ofChecked answer)

@[simp] theorem ofChecked_some (a : α) : (ofChecked (some a) : Exchange ε α) = pure a := rfl

@[simp] theorem checked_some (answer : Except ProtocolError α) :
    checked (some answer) = check answer := rfl

end Exchange

end UniversalRemote
