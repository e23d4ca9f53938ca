import UniversalRemote.ByteOrder
import UniversalRemote.Checksum
import UniversalRemote.Chunk
/-!
# Checksums of data in pieces

The 16-bit checksum of data is the exclusive or of its words (`words`), and it does not matter in
which pieces the data arrives (`value_pieces`).
-/

namespace UniversalRemote.XorWords

/-- The little-endian words of some bytes. An odd byte at their end is a word whose high byte is
zero. -/
def words (data : List UInt8) : List UInt16 :=
  (chunks 2 data).map ByteOrder.little.word16

@[simp] theorem words_nil : words [] = [] := by
  simp [words, chunks]

theorem word16_singleton (low : UInt8) : ByteOrder.little.word16 [low] = low.toUInt16 := by
  apply UInt16.toNat_inj.1
  have hlow := low.toNat_lt
  simp only [ByteOrder.word16, ByteOrder.value, List.take_succ_cons, List.take_nil,
    ByteOrder.littleValue, UInt16.toNat_ofNat', UInt8.toNat_toUInt16]
  omega

@[simp] theorem words_singleton (low : UInt8) : words [low] = [low.toUInt16] := by
  simp [words, chunks, word16_singleton]

/-- The two bytes of a word do not overlap. -/
theorem toNat_word (low high : UInt8) : (word low high).toNat = low.toNat + 256 * high.toNat := by
  have hlow : low.toNat < 2 ^ 8 := low.toNat_lt
  have hhigh := high.toNat_lt
  have hshift : high.toNat <<< 8 % 2 ^ 16 = high.toNat <<< 8 := by
    rw [Nat.shiftLeft_eq]
    exact Nat.mod_eq_of_lt (by omega)
  rw [word, UInt16.toNat_or, UInt16.toNat_shiftLeft, UInt8.toNat_toUInt16, UInt8.toNat_toUInt16]
  change low.toNat ||| high.toNat <<< 8 % 2 ^ 16 = _
  rw [hshift, Nat.or_comm, ← Nat.shiftLeft_add_eq_or_of_lt hlow, Nat.shiftLeft_eq]
  omega

theorem word16_pair (low high : UInt8) : ByteOrder.little.word16 [low, high] = word low high := by
  apply UInt16.toNat_inj.1
  have hlow := low.toNat_lt
  have hhigh := high.toNat_lt
  simp only [ByteOrder.word16, ByteOrder.value, List.take_succ_cons, List.take_nil,
    ByteOrder.littleValue, UInt16.toNat_ofNat', toNat_word]
  omega

@[simp] theorem words_cons_cons (low high : UInt8) (rest : List UInt8) :
    words (low :: high :: rest) = word low high :: words rest := by
  rw [words, chunks, List.map_cons]
  exact congrArg (· :: words rest) (word16_pair low high)

/-- Data behind complete words adds its own words to their sum. -/
theorem value_absorbWords (sum : UInt16) (data : List UInt8) :
    (absorbWords sum data).value = (words data).foldl (· ^^^ ·) sum := by
  fun_induction absorbWords sum data with
  | case1 sum => rw [words_nil]; rfl
  | case2 sum last => rw [words_singleton]; rfl
  | case3 sum low high rest ih => rw [ih, words_cons_cons, List.foldl_cons]

/-- Pieces taken in one after another are taken in as the data that they make up. -/
theorem foldl_absorb (x : XorWords) (pieces : List (List UInt8)) :
    pieces.foldl absorb x = x.absorb pieces.flatten := by
  induction pieces generalizing x with
  | nil => rw [List.foldl_nil, List.flatten_nil, absorb_nil]
  | cons piece pieces ih => rw [List.foldl_cons, ih, List.flatten_cons, absorb_append]

/-- Behind any number of pieces, the checksum is the exclusive or of the seed and the words of all
bytes taken in so far, and every other way to cut these bytes leads to the same state. -/
theorem value_pieces (seed : UInt16) (pieces : List (List UInt8)) (count : Nat) :
    let start : XorWords := { sum := seed }
    let taken := pieces.take count
    (taken.foldl absorb start).value = (words taken.flatten).foldl (· ^^^ ·) seed ∧
      ∀ other : List (List UInt8), other.flatten = taken.flatten →
        other.foldl absorb start = taken.foldl absorb start := by
  intro start taken
  constructor
  · rw [foldl_absorb]
    exact value_absorbWords seed taken.flatten
  · intro other hother
    rw [foldl_absorb, foldl_absorb, hother]

/-- A border within a word, and an empty piece behind it. -/
theorem value_pieces_within_word :
    let start : XorWords := { sum := 0x4321 }
    ([[0x01], [], [0x00, 0x00, 0x01, 0xFF]].foldl absorb start).value =
        0x4321 ^^^ 0x0001 ^^^ 0x0100 ^^^ 0x00FF ∧
      [[0x01, 0x00, 0x00], [0x01, 0xFF]].foldl absorb start =
        [[0x01], [], [0x00, 0x00, 0x01, 0xFF]].foldl absorb start := by
  intro start
  obtain ⟨hvalue, hother⟩ := value_pieces 0x4321 [[0x01], [], [0x00, 0x00, 0x01, 0xFF]] 3
  refine ⟨hvalue.trans ?_, hother [[0x01, 0x00, 0x00], [0x01, 0xFF]] rfl⟩
  have hwords : words [0x01, 0x00, 0x00, 0x01, 0xFF] = [0x0001, 0x0100, 0x00FF] := by
    rw [words_cons_cons, words_cons_cons, words_singleton]
    rfl
  exact congrArg (List.foldl (· ^^^ ·) 0x4321) hwords

end UniversalRemote.XorWords
