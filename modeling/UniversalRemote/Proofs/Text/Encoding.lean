import UniversalRemote.Text.Utf8
/-!
# Encoded text read back

The bytes of a text are read as that text: `Utf8.decode_encode`. The reader takes in one character
after another, and what the encoder writes for a character lies in the ranges that the leading byte
of the character announces.
-/

namespace UniversalRemote.Utf8

/-- What a leading byte announces, by its number. -/
theorem lead?_ofNat {n : Nat} (hn : n < 256) :
    lead? (UInt8.ofNat n) =
      if n < 0x80 then some ⟨n, 0, 0, 0⟩
      else if n < 0xC2 then none
      else if n < 0xE0 then some ⟨n % 32, 1, 0x80, 0xBF⟩
      else if n < 0xF0 then
        some ⟨n % 16, 2, if n = 0xE0 then 0xA0 else 0x80, if n = 0xED then 0x9F else 0xBF⟩
      else if n < 0xF5 then
        some ⟨n % 8, 3, if n = 0xF0 then 0x90 else 0x80, if n = 0xF4 then 0x8F else 0xBF⟩
      else none := by
  have hnat : (UInt8.ofNat n).toNat = n := by
    rw [UInt8.toNat_ofNat']
    exact Nat.mod_eq_of_lt hn
  have hlt : ∀ m : UInt8, UInt8.ofNat n < m ↔ n < m.toNat := by
    intro m
    rw [UInt8.lt_iff_toNat_lt, hnat]
  have heq : ∀ m : UInt8, UInt8.ofNat n = m ↔ n = m.toNat := by
    intro m
    rw [← UInt8.toNat_inj, hnat]
  simp only [lead?, hlt, heq, hnat]
  rfl

/-- A byte in the range that is admitted is taken in with its six low bits. -/
theorem follow_succ {count value n : Nat} {low high : UInt8} (hn : n < 64)
    (hlow : low.toNat ≤ n + 128) (hhigh : n + 128 ≤ high.toNat) (rest : List UInt8) :
    follow (count + 1) value low high (UInt8.ofNat (n + 128) :: rest) =
      follow count (value * 64 + n) 0x80 0xBF rest := by
  have hnat : (UInt8.ofNat (n + 128)).toNat = n + 128 := by
    rw [UInt8.toNat_ofNat']
    exact Nat.mod_eq_of_lt (by omega)
  have hrange : low ≤ UInt8.ofNat (n + 128) ∧ UInt8.ofNat (n + 128) ≤ high := by
    rw [UInt8.le_iff_toNat_le, UInt8.le_iff_toNat_le, hnat]
    exact ⟨hlow, hhigh⟩
  have hbits : (n + 128) % 64 = n := by omega
  simp only [follow, if_pos hrange, hnat, hbits]

theorem follow_zero (value : Nat) (low high : UInt8) (rest : List UInt8) :
    follow 0 value low high rest = (some value, rest) := by
  cases rest with
  | nil => rfl
  | cons b rest => rfl

/-- Behind the first of them, bytes are admitted whatever their six low bits are. -/
theorem follow_tail (count value n : Nat) (rest : List UInt8) :
    follow (count + 1) value 0x80 0xBF (UInt8.ofNat (n % 64 + 128) :: rest) =
      follow count (value * 64 + n % 64) 0x80 0xBF rest := by
  have hlow : (0x80 : UInt8).toNat = 128 := rfl
  have hhigh : (0xBF : UInt8).toNat = 191 := rfl
  exact follow_succ (by omega) (by omega) (by omega) rest

/-- A character that is announced and whose bytes all follow is read. -/
theorem scalars_cons {b : UInt8} {lead : Lead} {bytes rest : List UInt8} {n : Nat}
    (hlead : lead? b = some lead)
    (hfollow : follow lead.follow lead.bits lead.low lead.high bytes = (some n, rest)) :
    scalars (b :: bytes) = Char.ofNat n :: scalars rest := by
  rw [scalars, hlead]
  simp only [hfollow]
  rfl

section Lengths

variable {n : Nat} (rest : List UInt8)

theorem scalars_one (hn : n ≤ 0x7F) :
    scalars (UInt8.ofNat n :: rest) = Char.ofNat n :: scalars rest := by
  have hlead : lead? (UInt8.ofNat n) = some ⟨n, 0, 0, 0⟩ := by
    rw [lead?_ofNat (by omega), if_pos (by omega)]
  exact scalars_cons hlead (follow_zero _ _ _ _)

theorem scalars_two (hlow : 0x7F < n) (hhigh : n ≤ 0x7FF) :
    scalars (UInt8.ofNat (n / 64 % 32 + 192) :: UInt8.ofNat (n % 64 + 128) :: rest) =
      Char.ofNat n :: scalars rest := by
  have hlead : lead? (UInt8.ofNat (n / 64 % 32 + 192)) = some ⟨n / 64, 1, 0x80, 0xBF⟩ := by
    have hbits : (n / 64 % 32 + 192) % 32 = n / 64 := by omega
    rw [lead?_ofNat (by omega), if_neg (by omega), if_neg (by omega), if_pos (by omega), hbits]
  have hvalue : n / 64 * 64 + n % 64 = n := by omega
  have hfollow : follow 1 (n / 64) 0x80 0xBF (UInt8.ofNat (n % 64 + 128) :: rest) =
      (some n, rest) := by
    rw [follow_tail, follow_zero, hvalue]
  exact scalars_cons hlead hfollow

/-- The range of the second byte keeps out what has a shorter form, and what is no character. -/
theorem scalars_three (hlow : 0x7FF < n) (hhigh : n ≤ 0xFFFF) (hvalid : n < 0xD800 ∨ 0xDFFF < n) :
    scalars (UInt8.ofNat (n / 4096 % 16 + 224) :: UInt8.ofNat (n / 64 % 64 + 128) ::
      UInt8.ofNat (n % 64 + 128) :: rest) = Char.ofNat n :: scalars rest := by
  let low : UInt8 := if n / 4096 + 224 = 0xE0 then 0xA0 else 0x80
  let high : UInt8 := if n / 4096 + 224 = 0xED then 0x9F else 0xBF
  have hlead : lead? (UInt8.ofNat (n / 4096 % 16 + 224)) = some ⟨n / 4096, 2, low, high⟩ := by
    have hbits : (n / 4096 + 224) % 16 = n / 4096 := by omega
    have hfirst : n / 4096 % 16 = n / 4096 := by omega
    rw [hfirst, lead?_ofNat (by omega), if_neg (by omega), if_neg (by omega), if_neg (by omega),
      if_pos (by omega), hbits]
  have hadmitted : low.toNat ≤ n / 64 % 64 + 128 ∧ n / 64 % 64 + 128 ≤ high.toNat := by
    have ha0 : (0xA0 : UInt8).toNat = 160 := rfl
    have h9f : (0x9F : UInt8).toNat = 159 := rfl
    have h80 : (0x80 : UInt8).toNat = 128 := rfl
    have hbf : (0xBF : UInt8).toNat = 191 := rfl
    simp only [low, high, apply_ite UInt8.toNat, ha0, h9f, h80, hbf]
    split <;> split <;> omega
  have hvalue : (n / 4096 * 64 + n / 64 % 64) * 64 + n % 64 = n := by omega
  have hfollow : follow 2 (n / 4096) low high
      (UInt8.ofNat (n / 64 % 64 + 128) :: UInt8.ofNat (n % 64 + 128) :: rest) = (some n, rest) := by
    rw [follow_succ (by omega) hadmitted.1 hadmitted.2, follow_tail, follow_zero, hvalue]
  exact scalars_cons hlead hfollow

theorem scalars_four (hlow : 0xFFFF < n) (hhigh : n < 0x110000) :
    scalars (UInt8.ofNat (n / 262144 % 8 + 240) :: UInt8.ofNat (n / 4096 % 64 + 128) ::
      UInt8.ofNat (n / 64 % 64 + 128) :: UInt8.ofNat (n % 64 + 128) :: rest) =
      Char.ofNat n :: scalars rest := by
  let low : UInt8 := if n / 262144 + 240 = 0xF0 then 0x90 else 0x80
  let high : UInt8 := if n / 262144 + 240 = 0xF4 then 0x8F else 0xBF
  have hlead : lead? (UInt8.ofNat (n / 262144 % 8 + 240)) = some ⟨n / 262144, 3, low, high⟩ := by
    have hbits : (n / 262144 + 240) % 8 = n / 262144 := by omega
    have hfirst : n / 262144 % 8 = n / 262144 := by omega
    rw [hfirst, lead?_ofNat (by omega), if_neg (by omega), if_neg (by omega), if_neg (by omega),
      if_neg (by omega), if_pos (by omega), hbits]
  have hadmitted : low.toNat ≤ n / 4096 % 64 + 128 ∧ n / 4096 % 64 + 128 ≤ high.toNat := by
    have h90 : (0x90 : UInt8).toNat = 144 := rfl
    have h8f : (0x8F : UInt8).toNat = 143 := rfl
    have h80 : (0x80 : UInt8).toNat = 128 := rfl
    have hbf : (0xBF : UInt8).toNat = 191 := rfl
    simp only [low, high, apply_ite UInt8.toNat, h90, h8f, h80, hbf]
    split <;> split <;> omega
  have hvalue : ((n / 262144 * 64 + n / 4096 % 64) * 64 + n / 64 % 64) * 64 + n % 64 = n := by omega
  have hfollow : follow 3 (n / 262144) low high (UInt8.ofNat (n / 4096 % 64 + 128) ::
      UInt8.ofNat (n / 64 % 64 + 128) :: UInt8.ofNat (n % 64 + 128) :: rest) = (some n, rest) := by
    rw [follow_succ (by omega) hadmitted.1 hadmitted.2, follow_tail, follow_tail, follow_zero,
      hvalue]
  exact scalars_cons hlead hfollow

end Lengths

/-- What is written for a character is read as that character. -/
theorem scalars_utf8EncodeChar (c : Char) (rest : List UInt8) :
    scalars (String.utf8EncodeChar c ++ rest) = c :: scalars rest := by
  have hvalid : c.val.toNat < 0xD800 ∨ 0xDFFF < c.val.toNat ∧ c.val.toNat < 0x110000 := c.valid
  have hchar : Char.ofNat c.val.toNat = c := Char.ofNat_toNat c
  unfold String.utf8EncodeChar
  dsimp only
  generalize c.val.toNat = n at hvalid hchar
  subst hchar
  split
  · exact scalars_one rest (by omega)
  split
  · exact scalars_two rest (by omega) (by omega)
  split
  · exact scalars_three rest (by omega) (by omega) (by omega)
  · exact scalars_four rest (by omega) (by omega)

/-- The bytes of a text are read as that text. -/
theorem decode_encode (text : String) : decode (encode text) = text := by
  have hscalars : ∀ chars : List Char,
      scalars (chars.flatMap String.utf8EncodeChar) = chars := by
    intro chars
    induction chars with
    | nil => rw [List.flatMap_nil, scalars]
    | cons c chars ih => rw [List.flatMap_cons, scalars_utf8EncodeChar, ih]
  rw [decode, encode_eq_flatMap, hscalars, String.ofList_toList]

theorem decode?_encode (text : String) : decode? (encode text) = some text := by
  rw [decode?, decode_encode]
  exact if_pos rfl

/-- A text is encoded in as many bytes as it says it has. -/
theorem length_encode (text : String) : (encode text).length = text.utf8ByteSize := by
  have hlist : text.toUTF8.toList = text.toUTF8.data.toList := by
    rw [ByteArray.toList, toList_loop_eq]
    rfl
  rw [encode, hlist, Array.length_toList]
  rfl

end UniversalRemote.Utf8
