import Mathlib.Logic.Function.Defs
import UniversalRemote.Proofs.Checksum.Pieces
/-!
# What checksums detect

No checksum overlooks that a single byte of what it covers was replaced
(`checksums_set`). A fold overlooks no single element if its step overlooks neither a change of
the element nor one of what came before (`foldl_set_ne`).
-/

namespace UniversalRemote

section Fold

variable {α β : Type} {step : β → α → β}

theorem foldl_injective (hseed : ∀ a, Function.Injective (step · a)) (l : List α) :
    Function.Injective (l.foldl step ·) := by
  induction l with
  | nil => exact fun _ _ h => h
  | cons a rest ih => exact fun _ _ h => hseed a (ih h)

/-- A fold whose step is injective on either side notices that an element was replaced. -/
theorem foldl_set_ne (hseed : ∀ a, Function.Injective (step · a))
    (helement : ∀ b, Function.Injective (step b)) {l : List α} {i : Nat} {a old : α}
    (hold : l[i]? = some old) (ha : a ≠ old) (seed : β) :
    (l.set i a).foldl step seed ≠ l.foldl step seed := by
  induction l generalizing i seed with
  | nil => cases hold
  | cons first rest ih =>
    cases i with
    | zero =>
      obtain rfl := Option.some.inj hold
      exact fun h => ha (helement seed (foldl_injective hseed rest h))
    | succ i => exact ih hold (step seed first)

end Fold

/-! ## Bytes -/

theorem xorBytes_set_ne {data : List UInt8} {i : Nat} {b old : UInt8} (hold : data[i]? = some old)
    (hb : b ≠ old) (seed : UInt8) : xorBytes seed (data.set i b) ≠ xorBytes seed data :=
  foldl_set_ne (fun a _ _ => (UInt8.xor_left_inj a).1) (fun s _ _ => (UInt8.xor_right_inj s).1)
    hold hb seed

/-! ## Words -/

namespace XorWords

theorem word_inj {low high low' high' : UInt8} :
    word low high = word low' high' ↔ low = low' ∧ high = high' := by
  constructor
  · intro h
    have htoNat := congrArg UInt16.toNat h
    rw [toNat_word, toNat_word] at htoNat
    have := low.toNat_lt
    have := low'.toNat_lt
    exact ⟨UInt8.toNat_inj.1 (by omega), UInt8.toNat_inj.1 (by omega)⟩
  · rintro ⟨rfl, rfl⟩
    rfl

/-- Where a byte is replaced, one word is. -/
theorem exists_words_set {data : List UInt8} {i : Nat} {b old : UInt8} (hold : data[i]? = some old)
    (hb : b ≠ old) : ∃ w before, (words data)[i / 2]? = some before ∧ w ≠ before ∧
      words (data.set i b) = (words data).set (i / 2) w := by
  match data, i with
  | [last], 0 =>
    obtain rfl := Option.some.inj hold
    refine ⟨b.toUInt16, last.toUInt16, by simp, fun h => hb ?_, by simp⟩
    exact UInt8.toNat_inj.1 (congrArg UInt16.toNat h)
  | low :: high :: rest, 0 =>
    obtain rfl := Option.some.inj hold
    exact ⟨word b high, word low high, by simp, fun h => hb (word_inj.1 h).1, by simp⟩
  | low :: high :: rest, 1 =>
    obtain rfl := Option.some.inj hold
    exact ⟨word low b, word low high, by simp, fun h => hb (word_inj.1 h).2, by simp⟩
  | low :: high :: rest, i + 2 =>
    have hrest : rest[i]? = some old := hold
    obtain ⟨w, before, hbefore, hw, hset⟩ := exists_words_set hrest hb
    have hhalf : (i + 2) / 2 = i / 2 + 1 := by omega
    refine ⟨w, before, ?_, hw, ?_⟩
    · rw [hhalf, words_cons_cons]
      exact hbefore
    · rw [hhalf, List.set_cons_succ, List.set_cons_succ, words_cons_cons, hset, words_cons_cons,
        List.set_cons_succ]

end XorWords

theorem imageChecksum_eq (data : List UInt8) :
    imageChecksum data = (XorWords.words data).foldl (· ^^^ ·) imageSeed :=
  XorWords.value_absorbWords imageSeed data

theorem imageChecksum_set_ne {data : List UInt8} {i : Nat} {b old : UInt8}
    (hold : data[i]? = some old) (hb : b ≠ old) :
    imageChecksum (data.set i b) ≠ imageChecksum data := by
  obtain ⟨w, before, hbefore, hw, hset⟩ := XorWords.exists_words_set hold hb
  rw [imageChecksum_eq, imageChecksum_eq, hset]
  exact foldl_set_ne (fun a _ _ => (UInt16.xor_left_inj a).1)
    (fun s _ _ => (UInt16.xor_right_inj s).1) hbefore hw imageSeed

/-! ## Stored files -/

theorem fileChecksum_set (data : List UInt8) (i : Nat) (b : UInt8) : fileChecksum (data.set i b) =
    imageChecksum ((data.take (coveredLength data.length)).set i b) := by
  rw [fileChecksum, List.length_set, List.take_set]

/-- A replaced byte changes the checksums of a flash configuration and of an image. It changes that
of a stored file just if it is one of the bytes in front of the last six, the last of which does not
count where their number is odd. -/
theorem checksums_set {data : List UInt8} {i : Nat} (hi : i < data.length) {b : UInt8}
    (hb : b ≠ data[i]) :
    byteChecksum (data.set i b) ≠ byteChecksum data ∧
      imageChecksum (data.set i b) ≠ imageChecksum data ∧
      (fileChecksum (data.set i b) ≠ fileChecksum data ↔
        i < data.length - 6 - (data.length - 6) % 2) := by
  have hold : data[i]? = some data[i] := List.getElem?_eq_getElem hi
  refine ⟨xorBytes_set_ne hold hb 0x69, imageChecksum_set_ne hold hb, ?_⟩
  have hcovered : coveredLength data.length = data.length - 6 - (data.length - 6) % 2 := by
    unfold coveredLength
    omega
  rw [fileChecksum_set, ← hcovered]
  by_cases hlt : i < coveredLength data.length
  · have htaken : (data.take (coveredLength data.length))[i]? = some data[i] := by
      rw [List.getElem?_take_of_lt hlt, hold]
    exact iff_of_true (imageChecksum_set_ne htaken hb) hlt
  · have hbehind : (data.take (coveredLength data.length)).set i b =
        data.take (coveredLength data.length) := by
      apply List.set_eq_of_length_le
      rw [List.length_take]
      omega
    rw [hbehind]
    exact iff_of_false (fun h => h rfl) hlt

/-- The third of nine bytes is not covered, since the three bytes before the last six make up only
one word. -/
theorem checksums_set_odd_byte :
    let data : List UInt8 := [0x10, 0x20, 0x30, 0xAA, 0xAA, 0xAA, 0xAA, 0xAA, 0xAA]
    byteChecksum (data.set 2 0x31) ≠ byteChecksum data ∧
      imageChecksum (data.set 2 0x31) ≠ imageChecksum data ∧
      fileChecksum (data.set 2 0x31) = fileChecksum data ∧
      fileChecksum (data.set 1 0x21) ≠ fileChecksum data := by
  intro data
  have hlast : (0x31 : UInt8) ≠ 0x30 := by decide
  have hinner : (0x21 : UInt8) ≠ 0x20 := by decide
  obtain ⟨hbyte, himage, hfile⟩ := checksums_set (show 2 < data.length by decide) hlast
  obtain ⟨-, -, hcovered⟩ := checksums_set (show 1 < data.length by decide) hinner
  refine ⟨hbyte, himage, ?_, hcovered.2 (by decide)⟩
  exact Decidable.of_not_not fun h => absurd (hfile.1 h) (by decide)

end UniversalRemote
