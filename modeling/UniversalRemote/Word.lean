/-!
# Machine words that must not wrap

Sums of machine words that are absent, or capped, where the word has no room for them.
`checkedSum_eq_none_iff` says that a sum is absent only there.
-/

namespace UniversalRemote

/-- The sum of two 32-bit words, unless it leaves them. -/
def checkedSum (a b : UInt32) : Option UInt32 :=
  if a.toNat + b.toNat < 0x100000000 then some (a + b) else none

/-- The sum of two 32-bit words, or the greatest word. -/
def cappedSum (a b : UInt32) : UInt32 :=
  (checkedSum a b).getD 0xFFFFFFFF

def checkedSum16 (a b : UInt16) : Option UInt16 :=
  if a.toNat + b.toNat < 0x10000 then some (a + b) else none

/-- The difference of two 32-bit words, or zero. -/
def flooredDifference (a b : UInt32) : UInt32 :=
  if b ≤ a then a - b else 0

def flooredDifference16 (a b : UInt16) : UInt16 :=
  if b ≤ a then a - b else 0

/-- The byte before a byte; zero has none and stays. -/
def predecessor (b : UInt8) : UInt8 :=
  if b = 0 then 0 else b - 1

theorem checkedSum_eq_some {a b c : UInt32} (h : checkedSum a b = some c) :
    c.toNat = a.toNat + b.toNat := by
  unfold checkedSum at h
  split at h
  · rename_i hlt
    cases h
    rw [UInt32.toNat_add, Nat.mod_eq_of_lt hlt]
  · cases h

theorem exists_checkedSum {a : UInt32} {n : Nat} (h : a.toNat + n < 0x100000000) :
    ∃ c, checkedSum a (UInt32.ofNat n) = some c ∧ c.toNat = a.toNat + n := by
  have hn : (UInt32.ofNat n).toNat = n := Nat.mod_eq_of_lt (by omega)
  obtain ⟨c, hc⟩ : ∃ c, checkedSum a (UInt32.ofNat n) = some c := ⟨_, if_pos (by omega)⟩
  exact ⟨c, hc, by rw [checkedSum_eq_some hc, hn]⟩

theorem checkedSum_eq_none_iff {a b : UInt32} :
    checkedSum a b = none ↔ 0x100000000 ≤ a.toNat + b.toNat := by
  simp [checkedSum]

theorem checkedSum16_eq_none_iff {a b : UInt16} :
    checkedSum16 a b = none ↔ 0x10000 ≤ a.toNat + b.toNat := by
  simp [checkedSum16]

theorem toNat_cappedSum (a b : UInt32) :
    (cappedSum a b).toNat = min (a.toNat + b.toNat) 0xFFFFFFFF := by
  unfold cappedSum
  cases h : checkedSum a b with
  | none =>
    have := checkedSum_eq_none_iff.1 h
    rw [Option.getD_none, Nat.min_eq_right (by omega)]
    rfl
  | some c =>
    have := c.toNat_lt
    have := checkedSum_eq_some h
    rw [Option.getD_some, Nat.min_eq_left (by omega), this]

theorem toNat_flooredDifference (a b : UInt32) :
    (flooredDifference a b).toNat = a.toNat - b.toNat := by
  unfold flooredDifference
  split
  · rename_i hle
    exact UInt32.toNat_sub_of_le _ _ hle
  · rename_i hlt
    have := UInt32.lt_iff_toNat_lt.1 (UInt32.not_le.1 hlt)
    have hzero : (0 : UInt32).toNat = 0 := rfl
    omega

end UniversalRemote
