/-!
# UTF-8 text

Bytes read as UTF-8. Ill-formed input is not refused: each maximal part of a sequence that no
well-formed character begins with, or that breaks off, is read as one replacement character.
-/

namespace UniversalRemote.Utf8

/-- What a leading byte announces: the bits it carries, the number of bytes that follow it, and
the range that the first of those must lie in. -/
structure Lead where
  bits : Nat
  follow : Nat
  low : UInt8
  high : UInt8

/-- The announcement of a leading byte. The ranges exclude overlong forms, surrogates and values
above `0x10FFFF`. -/
def lead? (b : UInt8) : Option Lead :=
  if b < 0x80 then some ⟨b.toNat, 0, 0, 0⟩
  else if b < 0xC2 then none
  else if b < 0xE0 then some ⟨b.toNat % 32, 1, 0x80, 0xBF⟩
  else if b < 0xF0 then
    some ⟨b.toNat % 16, 2, if b = 0xE0 then 0xA0 else 0x80, if b = 0xED then 0x9F else 0xBF⟩
  else if b < 0xF5 then
    some ⟨b.toNat % 8, 3, if b = 0xF0 then 0x90 else 0x80, if b = 0xF4 then 0x8F else 0xBF⟩
  else none

/-- Reads `count` more bytes of a character, the first of them between `low` and `high`: the
character's number if all are there, and what was not read. -/
def follow (count value : Nat) (low high : UInt8) : List UInt8 → Option Nat × List UInt8
  | [] => (if count = 0 then some value else none, [])
  | b :: rest =>
    match count with
    | 0 => (some value, b :: rest)
    | count + 1 =>
      if low ≤ b ∧ b ≤ high then follow count (value * 64 + b.toNat % 64) 0x80 0xBF rest
      else (none, b :: rest)

theorem length_follow_le (count value : Nat) (low high : UInt8) (bytes : List UInt8) :
    (follow count value low high bytes).2.length ≤ bytes.length := by
  induction bytes generalizing count value low high with
  | nil => simp [follow]
  | cons b rest ih =>
    cases count with
    | zero => simp [follow]
    | succ count =>
      simp only [follow]
      split
      · exact Nat.le_succ_of_le (ih ..)
      · simp

/-- The character that stands for an ill-formed part. -/
def replacement : Char := '\ufffd'

def scalars : List UInt8 → List Char
  | [] => []
  | b :: rest =>
    match lead? b with
    | none => replacement :: scalars rest
    | some lead =>
      let tail := follow lead.follow lead.bits lead.low lead.high rest
      (tail.1.elim replacement Char.ofNat) :: scalars tail.2
termination_by bytes => bytes.length
decreasing_by
  · simp
  · exact Nat.lt_succ_of_le (length_follow_le ..)

def decode (bytes : List UInt8) : String :=
  String.ofList (scalars bytes)

def encode (text : String) : List UInt8 :=
  text.toUTF8.toList

/-- The text of a byte string that is well-formed throughout. -/
def decode? (bytes : List UInt8) : Option String :=
  let text := decode bytes
  if encode text = bytes then some text else none

/-! ## Encoded characters -/

theorem toList_loop_eq (bytes : ByteArray) (i : Nat) (before : List UInt8) :
    ByteArray.toList.loop bytes i before = before.reverse ++ bytes.data.toList.drop i := by
  fun_induction ByteArray.toList.loop bytes i before with
  | case1 i before hi ih =>
    have hlength : i < bytes.data.toList.length := hi
    have hbyte : bytes.get! i = bytes.data.toList[i] := by
      show bytes.data[i]! = _
      rw [getElem!_pos bytes.data i hi, Array.getElem_toList]
    rw [ih, hbyte, List.reverse_cons, List.append_assoc, List.singleton_append,
      List.getElem_cons_drop]
  | case2 i before hi =>
    have hlength : bytes.data.toList.length ≤ i := Nat.le_of_not_lt hi
    rw [List.drop_of_length_le hlength, List.append_nil]

theorem encode_eq_flatMap (text : String) :
    encode text = text.toList.flatMap String.utf8EncodeChar := by
  have hbytes : text.toUTF8 = (text.toList.flatMap String.utf8EncodeChar).toByteArray :=
    String.utf8Encode_toList.symm
  rw [encode, hbytes, ByteArray.toList, toList_loop_eq, List.toList_data_toByteArray]
  rfl

theorem zero_ne_ofNat {n : Nat} (hpos : 0 < n) (hlt : n < 256) : (0 : UInt8) ≠ UInt8.ofNat n := by
  intro h
  have hzero : (0 : UInt8).toNat = n := by
    rw [h, UInt8.toNat_ofNat']
    exact Nat.mod_eq_of_lt hlt
  have : (0 : UInt8).toNat = 0 := rfl
  omega

/-- Only the character zero is encoded with a zero byte. -/
theorem zero_notMem_utf8EncodeChar {c : Char} (hc : c ≠ '\x00') :
    (0 : UInt8) ∉ String.utf8EncodeChar c := by
  have hpos : 0 < c.val.toNat := by
    refine Nat.pos_of_ne_zero fun hzero => hc ?_
    exact Char.ext (UInt32.toNat_inj.1 hzero)
  unfold String.utf8EncodeChar
  dsimp only
  simp only [apply_ite ((0 : UInt8) ∉ ·), List.mem_cons, List.not_mem_nil, or_false, not_or]
  split
  · exact zero_ne_ofNat hpos (by omega)
  split
  · exact ⟨zero_ne_ofNat (by omega) (by omega), zero_ne_ofNat (by omega) (by omega)⟩
  split
  · exact ⟨zero_ne_ofNat (by omega) (by omega), zero_ne_ofNat (by omega) (by omega),
      zero_ne_ofNat (by omega) (by omega)⟩
  · exact ⟨zero_ne_ofNat (by omega) (by omega), zero_ne_ofNat (by omega) (by omega),
      zero_ne_ofNat (by omega) (by omega), zero_ne_ofNat (by omega) (by omega)⟩

theorem zero_notMem_encode {text : String} (h : '\x00' ∉ text.toList) :
    (0 : UInt8) ∉ encode text := by
  rw [encode_eq_flatMap, List.mem_flatMap]
  rintro ⟨c, hc, hzero⟩
  exact zero_notMem_utf8EncodeChar (fun heq => h (heq ▸ hc)) hzero

end UniversalRemote.Utf8
