/-!
# Byte orders

Words as bytes in either order. `value_bytes` says that a word reads back from its bytes, reduced
to the width that it was written with.
-/

namespace UniversalRemote

/-- The order in which the bytes of a word travel. -/
inductive ByteOrder where
  /-- Least significant byte first. -/
  | little
  /-- Most significant byte first. -/
  | big
  deriving DecidableEq, Repr

namespace ByteOrder

/-- The number that bytes spell, least significant first. -/
def littleValue : List UInt8 → Nat
  | [] => 0
  | b :: rest => b.toNat + 256 * littleValue rest

/-- The last `width` bytes of a number, least significant first. -/
def littleBytes : Nat → Nat → List UInt8
  | 0, _ => []
  | width + 1, n => UInt8.ofNat n :: littleBytes width (n / 256)

def value : ByteOrder → List UInt8 → Nat
  | little, bytes => littleValue bytes
  | big, bytes => littleValue bytes.reverse

/-- A number in `width` bytes; what does not fit is dropped from the most significant end. -/
def bytes : ByteOrder → Nat → Nat → List UInt8
  | little, width, n => littleBytes width n
  | big, width, n => (littleBytes width n).reverse

/-- The number of values that so many bytes can spell. -/
def room : Nat → Nat
  | 0 => 1
  | width + 1 => 256 * room width

@[simp] theorem length_littleBytes (width n : Nat) : (littleBytes width n).length = width := by
  induction width generalizing n with
  | zero => rfl
  | succ width ih => simp [littleBytes, ih]

@[simp] theorem length_bytes (order : ByteOrder) (width n : Nat) :
    (order.bytes width n).length = width := by
  cases order <;> simp [bytes]

theorem littleValue_littleBytes (width n : Nat) :
    littleValue (littleBytes width n) = n % room width := by
  induction width generalizing n with
  | zero => simp [littleValue, littleBytes, room, Nat.mod_one]
  | succ width ih =>
    have h : (UInt8.ofNat n).toNat = n % 256 := by simp
    rw [littleBytes, littleValue, ih, h, room, Nat.mod_mul]

theorem littleValue_lt (bytes : List UInt8) : littleValue bytes < room bytes.length := by
  induction bytes with
  | nil => exact Nat.one_pos
  | cons b rest ih =>
    have := b.toNat_lt
    rw [littleValue, List.length_cons, room]
    omega

/-- So many bytes have room for the number that they spell. -/
theorem value_lt (order : ByteOrder) (bytes : List UInt8) :
    order.value bytes < room bytes.length := by
  cases order with
  | little => exact littleValue_lt bytes
  | big => exact List.length_reverse ▸ littleValue_lt bytes.reverse

/-- A word reads back from its bytes. -/
theorem value_bytes (order : ByteOrder) (width n : Nat) :
    order.value (order.bytes width n) = n % room width := by
  cases order <;> simp [value, bytes, littleValue_littleBytes]

def bytes16 (order : ByteOrder) (w : UInt16) : List UInt8 :=
  order.bytes 2 w.toNat

def bytes32 (order : ByteOrder) (w : UInt32) : List UInt8 :=
  order.bytes 4 w.toNat

def word16 (order : ByteOrder) (bytes : List UInt8) : UInt16 :=
  UInt16.ofNat (order.value (bytes.take 2))

def word32 (order : ByteOrder) (bytes : List UInt8) : UInt32 :=
  UInt32.ofNat (order.value (bytes.take 4))

/-- A 16-bit word reads back from its two bytes. -/
theorem word16_bytes16 (order : ByteOrder) (w : UInt16) : order.word16 (order.bytes16 w) = w := by
  have hroom : w.toNat % room 2 = w.toNat := Nat.mod_eq_of_lt w.toNat_lt
  rw [word16, bytes16, List.take_of_length_le (Nat.le_of_eq (length_bytes ..)), value_bytes, hroom,
    UInt16.ofNat_toNat]

/-- A 32-bit word reads back from its four bytes. -/
theorem word32_bytes32 (order : ByteOrder) (w : UInt32) : order.word32 (order.bytes32 w) = w := by
  have hroom : w.toNat % room 4 = w.toNat := Nat.mod_eq_of_lt w.toNat_lt
  rw [word32, bytes32, List.take_of_length_le (Nat.le_of_eq (length_bytes ..)), value_bytes, hroom,
    UInt32.ofNat_toNat]

end ByteOrder

end UniversalRemote
