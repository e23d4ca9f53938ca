import Mathlib.Algebra.Ring.Nat
import Mathlib.Data.List.Induction
import UniversalRemote.Proofs.Text.Encoding
import UniversalRemote.Text.Numeral
/-!
# Digits

Numbers are read back from their digits, and digits put together spell what their parts do. A digit
is encoded in one byte, and no byte of any other character is taken for one.
-/

namespace UniversalRemote

/-! ## Digits of any base -/

namespace Numeral

theorem length_digits_le {base : Base} {n width : Nat} (h : n < base.size ^ (width + 1)) :
    (digits base n).length ≤ width + 1 := by
  fun_induction digits base n generalizing width with
  | case1 n => simp
  | case2 n hn ih =>
    cases width with
    | zero => exact absurd (Nat.pow_one base.size ▸ h) hn
    | succ width =>
      rw [Nat.pow_succ] at h
      have := ih (Nat.div_lt_of_lt_mul (Nat.mul_comm _ _ ▸ h))
      rw [List.length_append, List.length_singleton]
      omega

theorem ofDigits_replicate_zero (base count : Nat) (cs : List Char) :
    ofDigits base (List.replicate count '0' ++ cs) = ofDigits base cs := by
  induction count with
  | zero => rfl
  | succ count ih =>
    have hzero : 0 * base + (Hex.value? '0').getD 0 = 0 := by rw [Nat.zero_mul]; rfl
    rw [List.replicate_succ, List.cons_append, ← ih, ofDigits, List.foldl_cons, hzero]
    rfl

theorem ofDigits_append (base : Nat) (cs ds : List Char) :
    ofDigits base (cs ++ ds) = ofDigits base cs * base ^ ds.length + ofDigits base ds := by
  induction ds using List.reverseRecOn with
  | nil => simp [ofDigits]
  | append_singleton ds d ih =>
    rw [← List.append_assoc, ofDigits_concat, ih, ofDigits_concat, List.length_append,
      List.length_singleton, Nat.pow_succ, Nat.add_mul, Nat.mul_assoc, Nat.add_assoc]

theorem ofDigits_drop_le (base count : Nat) (cs : List Char) :
    ofDigits base (cs.drop count) ≤ ofDigits base cs := by
  conv => rhs; rw [← List.take_append_drop count cs, ofDigits_append]
  exact Nat.le_add_left _ _

end Numeral

/-! ## Hexadecimal numbers -/

namespace Hex

open Numeral

/-- Whether a character is a digit of either case. -/
def isDigit (c : Char) : Bool :=
  (value? c).isSome

theorem value?_eq (c : Char) : value? c =
    if 48 ≤ c.toNat ∧ c.toNat ≤ 57 then some (c.toNat - 48)
    else if 65 ≤ c.toNat ∧ c.toNat ≤ 70 then some (c.toNat - 55)
    else if 97 ≤ c.toNat ∧ c.toNat ≤ 102 then some (c.toNat - 87)
    else none :=
  rfl

/-- Digits are few and early among all characters. -/
theorem value?_eq_some {c : Char} {d : Nat} (h : value? c = some d) : d < 16 ∧ c.toNat < 0x80 := by
  rw [value?_eq] at h
  grind

theorem isDigit_digit (n : Nat) : isDigit (digit n) = true := by
  rw [isDigit, value?_digit]
  rfl

theorem isDigit_of_mem_padded {width n : Nat} {c : Char} (h : c ∈ padded width n) :
    isDigit c = true := by
  rcases List.mem_append.1 h with h | h
  · rw [List.eq_of_mem_replicate h]; rfl
  · obtain ⟨d, -, rfl⟩ := exists_of_mem_digits h
    exact isDigit_digit d

theorem length_padded {n width : Nat} (h : n < 16 ^ (width + 1)) :
    (padded (width + 1) n).length = width + 1 := by
  have hlength : (digits n).length ≤ width + 1 := length_digits_le h
  rw [padded, List.length_append, List.length_replicate]
  omega

/-- A number reads back from its digits, however many zeros stand before them. -/
theorem ofDigits_padded (width n : Nat) : ofDigits 16 (padded width n) = n := by
  rw [padded, ofDigits_replicate_zero]
  exact ofDigits_digits hexadecimal n

end Hex

/-! ## Decimal numbers -/

namespace Decimal

theorem isDigit_iff {c : Char} : isDigit c = true ↔ 48 ≤ c.toNat ∧ c.toNat ≤ 57 :=
  Bool.and_eq_true_iff.trans (and_congr decide_eq_true_iff decide_eq_true_iff)

theorem isDigit_eq (c : Char) : isDigit c = (Hex.value? c).any (· < 10) := by
  rw [Bool.eq_iff_iff, isDigit_iff, Hex.value?_eq]
  grind

end Decimal

/-! ## Characters of one byte -/

namespace Utf8

theorem toNat_ofNat_byte (b : UInt8) : (Char.ofNat b.toNat).toNat = b.toNat := by
  have hvalid : b.toNat.isValidChar := .inl (Nat.lt_trans b.toNat_lt (by decide))
  rw [Char.ofNat, dif_pos hvalid]
  rfl

theorem encode_ofList (cs : List Char) :
    encode (String.ofList cs) = cs.flatMap String.utf8EncodeChar := by
  rw [encode_eq_flatMap, String.toList_ofList]

theorem encode_append (cs ds : List Char) :
    encode (String.ofList (cs ++ ds)) = encode (String.ofList cs) ++ encode (String.ofList ds) := by
  rw [encode_ofList, encode_ofList, encode_ofList, List.flatMap_append]

theorem utf8EncodeChar_ascii {c : Char} (h : c.toNat < 0x80) :
    String.utf8EncodeChar c = [UInt8.ofNat c.toNat] := by
  unfold String.utf8EncodeChar
  exact if_pos (Nat.le_of_lt_succ h)

/-- Every other character begins with a byte that is none of theirs. -/
theorem exists_utf8EncodeChar {c : Char} (h : 0x80 ≤ c.toNat) :
    ∃ b rest, String.utf8EncodeChar c = b :: rest ∧ 0x80 ≤ b.toNat := by
  have hle : ¬ c.val.toNat ≤ 0x7F := Nat.not_le.2 h
  unfold String.utf8EncodeChar
  dsimp only
  rw [if_neg hle]
  split
  · exact ⟨_, _, rfl, by rw [UInt8.toNat_ofNat']; omega⟩
  split
  · exact ⟨_, _, rfl, by rw [UInt8.toNat_ofNat']; omega⟩
  · exact ⟨_, _, rfl, by rw [UInt8.toNat_ofNat']; omega⟩

theorem encode_ascii {cs : List Char} (h : ∀ c ∈ cs, c.toNat < 0x80) :
    encode (String.ofList cs) = cs.map fun c => UInt8.ofNat c.toNat := by
  rw [encode_ofList]
  induction cs with
  | nil => rfl
  | cons c cs ih =>
    obtain ⟨hc, hcs⟩ := List.forall_mem_cons.1 h
    rw [List.flatMap_cons, utf8EncodeChar_ascii hc, ih hcs]
    rfl

theorem scalars_encode (cs : List Char) : scalars (encode (String.ofList cs)) = cs := by
  have h := congrArg String.toList (decode_encode (String.ofList cs))
  rwa [decode, String.toList_ofList, String.toList_ofList] at h

/-- As many bytes as characters are left out, if those have one byte each. -/
theorem drop_encode {count : Nat} {cs : List Char} (h : ∀ c ∈ cs.take count, c.toNat < 0x80) :
    (encode (String.ofList cs)).drop count = encode (String.ofList (cs.drop count)) := by
  rw [encode_ofList, encode_ofList]
  induction count generalizing cs with
  | zero => rfl
  | succ count ih =>
    cases cs with
    | nil => rfl
    | cons c cs =>
      rw [List.take_succ_cons] at h
      obtain ⟨hc, hcs⟩ := List.forall_mem_cons.1 h
      rw [List.flatMap_cons, utf8EncodeChar_ascii hc]
      exact ih hcs

theorem scalars_ascii {cs : List Char} (h : ∀ c ∈ cs, c.toNat < 0x80) (rest : List UInt8) :
    scalars (cs.map (fun c => UInt8.ofNat c.toNat) ++ rest) = cs ++ scalars rest := by
  induction cs with
  | nil => rfl
  | cons c cs ih =>
    obtain ⟨hc, hcs⟩ := List.forall_mem_cons.1 h
    rw [List.map_cons, List.cons_append, scalars_one _ (Nat.le_of_lt_succ hc), ih hcs,
      Char.ofNat_toNat]
    rfl

end Utf8

end UniversalRemote
