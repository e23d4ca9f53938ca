import UniversalRemote.Error
/-!
# Parameter lengths

The length of a parameter in one byte: the two top bits choose the unit, the other six count it.
`Length.decode_encode` says that every encodable length reads back.
-/

namespace UniversalRemote.Length

/-- The length that a byte announces, in units of one, four or 512. -/
def decode (b : UInt8) : Nat :=
  let count := b.toNat % 64
  match b.toNat / 64 with
  | 1 => count * 4
  | 3 => count * 512
  | _ => count

/-- The byte that announces a length in the smallest unit that gives it exactly. -/
def encode (length : Nat) : Except ProtocolError UInt8 :=
  if length ≤ 63 then .ok (UInt8.ofNat length)
  else if length % 4 = 0 ∧ length / 4 ≤ 63 then .ok (UInt8.ofNat (64 + length / 4))
  else if length % 512 = 0 ∧ length / 512 ≤ 63 then .ok (UInt8.ofNat (192 + length / 512))
  else .error (.invalidArgument s!"parameter length {length} is not encodable")

/-- The size of the next piece when `remaining` bytes are left to cut into parameters. -/
def piece (remaining : Nat) : Nat :=
  if remaining ≥ 1024 then 1024
  else if remaining ≥ 512 then 512
  else if remaining ≥ 64 then min (remaining / 4 * 4) 252
  else remaining

theorem decode_ofNat {n : Nat} (h : n < 256) :
    decode (UInt8.ofNat n) =
      if n / 64 = 1 then n % 64 * 4 else if n / 64 = 3 then n % 64 * 512 else n % 64 := by
  have hn : (UInt8.ofNat n).toNat = n := by
    rw [UInt8.toNat_ofNat']
    exact Nat.mod_eq_of_lt h
  have hq : n / 64 < 4 := by omega
  simp only [decode, hn]
  generalize n / 64 = q at hq ⊢
  match q, hq with
  | 0, _ | 1, _ | 2, _ | 3, _ => rfl

/-- Every encodable length reads back. -/
theorem decode_encode {length : Nat} {b : UInt8} (h : encode length = .ok b) :
    decode b = length := by
  unfold encode at h
  split at h
  · cases h
    rw [decode_ofNat (by omega)]
    grind
  · split at h
    · cases h
      rw [decode_ofNat (by omega)]
      grind
    · split at h
      · cases h
        rw [decode_ofNat (by omega)]
        grind
      · cases h

end UniversalRemote.Length
