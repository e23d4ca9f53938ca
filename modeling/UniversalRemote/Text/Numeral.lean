/-!
# Numerals

Numbers of a base as text, most significant digit first and without leading zeros, and the values of
digits read back. `ofDigits_digits` says that every written number reads back as itself.
-/

namespace UniversalRemote

namespace Hex

/-- The digit that stands for `n` modulo sixteen, in upper case. -/
def digit (n : Nat) : Char :=
  if n % 16 < 10 then Char.ofNat (48 + n % 16) else Char.ofNat (55 + n % 16)

/-- The value of a digit of either case. -/
def value? (c : Char) : Option Nat :=
  if '0' ≤ c ∧ c ≤ '9' then some (c.toNat - 48)
  else if 'A' ≤ c ∧ c ≤ 'F' then some (c.toNat - 55)
  else if 'a' ≤ c ∧ c ≤ 'f' then some (c.toNat - 87)
  else none

theorem digit_mod (n : Nat) : digit (n % 16) = digit n := by
  simp [digit]

theorem value?_digit (n : Nat) : value? (digit n) = some (n % 16) := by
  rw [← digit_mod]
  have h : n % 16 < 16 := Nat.mod_lt _ (by decide)
  generalize n % 16 = m at h
  rcases m with _ | _ | _ | _ | _ | _ | _ | _ | _ | _ | _ | _ | _ | _ | _ | _ | m
  all_goals first | rfl | omega

end Hex

namespace Numeral

/-- A base in which there is a digit for each remainder. -/
structure Base where
  size : Nat
  two_le : 2 ≤ size
  le_sixteen : size ≤ 16

def decimal : Base := ⟨10, by decide, by decide⟩

def hexadecimal : Base := ⟨16, by decide, by decide⟩

/-- The digits of `n`, most significant first, without leading zeros. -/
def digits (base : Base) (n : Nat) : List Char :=
  if n < base.size then [Hex.digit n]
  else digits base (n / base.size) ++ [Hex.digit (n % base.size)]
termination_by n
decreasing_by
  have := base.two_le
  exact Nat.div_lt_self (by omega) this

/-- The value of digits of a base, most significant first. -/
def ofDigits (base : Nat) (cs : List Char) : Nat :=
  cs.foldl (fun n c => n * base + (Hex.value? c).getD 0) 0

theorem ofDigits_concat (base : Nat) (cs : List Char) (c : Char) :
    ofDigits base (cs ++ [c]) = ofDigits base cs * base + (Hex.value? c).getD 0 := by
  simp [ofDigits]

variable {base : Base}

theorem value?_digit {n : Nat} (h : n < base.size) : Hex.value? (Hex.digit n) = some n := by
  rw [Hex.value?_digit, Nat.mod_eq_of_lt (Nat.lt_of_lt_of_le h base.le_sixteen)]

theorem exists_of_mem_digits {n : Nat} {c : Char} (h : c ∈ digits base n) :
    ∃ d < base.size, c = Hex.digit d := by
  fun_induction digits base n with
  | case1 n hn => exact ⟨n, hn, List.mem_singleton.1 h⟩
  | case2 n hn ih =>
    rcases List.mem_append.1 h with h | h
    · exact ih h
    · have hsize : 0 < base.size := Nat.lt_of_lt_of_le (by decide) base.two_le
      exact ⟨n % base.size, Nat.mod_lt _ hsize, List.mem_singleton.1 h⟩

theorem ofDigits_digits (base : Base) (n : Nat) : ofDigits base.size (digits base n) = n := by
  fun_induction digits base n with
  | case1 n hn => simp [ofDigits, value?_digit hn]
  | case2 n hn ih =>
    have hsize : 0 < base.size := Nat.lt_of_lt_of_le (by decide) base.two_le
    rw [ofDigits_concat, ih, value?_digit (Nat.mod_lt n hsize)]
    exact Nat.div_add_mod' n base.size

end Numeral

/-! ## Hexadecimal text -/

namespace Hex

abbrev digits (n : Nat) : List Char :=
  Numeral.digits Numeral.hexadecimal n

/-- The digits of `n` behind as many zeros as bring them to `width`. -/
def padded (width n : Nat) : List Char :=
  List.replicate (width - (digits n).length) '0' ++ digits n

def text (width n : Nat) : String :=
  String.ofList (padded width n)

def pair (b : UInt8) : List Char :=
  [digit (b.toNat / 16), digit b.toNat]

end Hex

/-! ## Decimal text -/

namespace Decimal

def isDigit (c : Char) : Bool :=
  '0' ≤ c && c ≤ '9'

abbrev digits (n : Nat) : List Char :=
  Numeral.digits Numeral.decimal n

theorem isDigit_of_mem_digits {n : Nat} {c : Char} (h : c ∈ digits n) : isDigit c = true := by
  have hall : ∀ d ∈ List.range 10, isDigit (Hex.digit d) = true := by decide
  obtain ⟨d, hd, rfl⟩ := Numeral.exists_of_mem_digits h
  exact hall d (List.mem_range.2 hd)

end Decimal

end UniversalRemote
