/-!
# Exclusive-or checksums

The 8-bit checksum of a flash configuration and the 16-bit checksum of an update image. The 16-bit
sum takes its data in pieces of any length, and `absorb_append` says that their borders do not
matter.
-/

namespace UniversalRemote

def xorBytes (seed : UInt8) (data : List UInt8) : UInt8 :=
  data.foldl (· ^^^ ·) seed

/-- A running exclusive or of little-endian words: the sum of the complete words, and the first
byte of a word whose second has not arrived. -/
structure XorWords where
  sum : UInt16
  pending : Option UInt8 := none
  deriving DecidableEq, Repr

namespace XorWords

/-- A word of two bytes, the low one first. -/
def word (low high : UInt8) : UInt16 :=
  low.toUInt16 ||| (high.toUInt16 <<< 8)

def push (x : XorWords) (b : UInt8) : XorWords :=
  match x.pending with
  | none => { x with pending := some b }
  | some low => { sum := x.sum ^^^ word low b, pending := none }

/-- Takes in data behind complete words, two bytes at a time. An odd byte at its end is kept back. -/
def absorbWords (sum : UInt16) : List UInt8 → XorWords
  | [] => { sum }
  | [last] => { sum, pending := some last }
  | low :: high :: rest => absorbWords (sum ^^^ word low high) rest

/-- Takes in a piece of the data. Its first byte completes the word of a byte that was kept back. -/
def absorb (x : XorWords) (data : List UInt8) : XorWords :=
  match x.pending, data with
  | none, data => absorbWords x.sum data
  | some _, [] => x
  | some low, high :: rest => absorbWords (x.sum ^^^ word low high) rest

/-- The checksum so far; a pending byte counts as a word with a zero high byte. -/
def value (x : XorWords) : UInt16 :=
  match x.pending with
  | none => x.sum
  | some low => x.sum ^^^ low.toUInt16

theorem absorbWords_eq_foldl (sum : UInt16) (data : List UInt8) :
    absorbWords sum data = data.foldl push { sum } := by
  fun_induction absorbWords sum data with
  | case1 => rfl
  | case2 => rfl
  | case3 sum low high rest ih => exact ih

/-- Data is taken in as if byte by byte. -/
theorem absorb_eq_foldl (x : XorWords) (data : List UInt8) : x.absorb data = data.foldl push x := by
  obtain ⟨sum, pending⟩ := x
  match pending, data with
  | none, data => exact absorbWords_eq_foldl sum data
  | some low, [] => rfl
  | some low, high :: rest => exact absorbWords_eq_foldl (sum ^^^ word low high) rest

@[simp] theorem absorb_nil (x : XorWords) : x.absorb [] = x := by
  rw [absorb_eq_foldl, List.foldl_nil]

theorem absorb_append (x : XorWords) (first second : List UInt8) :
    x.absorb (first ++ second) = (x.absorb first).absorb second := by
  simp only [absorb_eq_foldl, List.foldl_append]

end XorWords

/-- The 8-bit checksum of a flash configuration. -/
def byteChecksum (data : List UInt8) : UInt8 :=
  xorBytes 0x69 data

def imageSeed : UInt16 := 0x4321

def imageChecksum (data : List UInt8) : UInt16 :=
  (({ sum := imageSeed } : XorWords).absorb data).value

/-- The number of leading bytes that the checksum of a stored file covers: all but the last six,
and an even number. -/
def coveredLength (length : Nat) : Nat :=
  (length - 6) / 2 * 2

def fileChecksum (data : List UInt8) : UInt16 :=
  imageChecksum (data.take (coveredLength data.length))

/-- The three letters that tell how a checksum is computed. -/
structure ChecksumKind where
  first : UInt8
  second : UInt8
  third : UInt8
  deriving DecidableEq, Repr

namespace ChecksumKind

def bytes (k : ChecksumKind) : List UInt8 :=
  [k.first, k.second, k.third]

/-- The kind that some bytes begin with; a byte that is missing counts as zero. -/
def ofBytes (bytes : List UInt8) : ChecksumKind :=
  ⟨bytes.getD 0 0, bytes.getD 1 0, bytes.getD 2 0⟩

instance : Coe ChecksumKind (List UInt8) := ⟨bytes⟩

instance : Coe (List UInt8) ChecksumKind := ⟨ofBytes⟩

end ChecksumKind

/-- The attributes of a checksum that go with a finished file. -/
structure ChecksumRecord where
  kind : ChecksumKind
  seed : UInt16
  length : UInt32
  expected : UInt16
  deriving DecidableEq, Repr

def ChecksumRecord.ofConfig (data : List UInt8) : ChecksumRecord where
  kind := ⟨0x58, 0x4F, 0x52⟩
  seed := imageSeed
  length := UInt32.ofNat (data.length - 6)
  expected := fileChecksum data

end UniversalRemote
