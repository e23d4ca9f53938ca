import UniversalRemote.Proofs.Link.Access
import UniversalRemote.Proofs.Text.Digits
import UniversalRemote.Serial
/-!
# Serial numbers read back

A serial number is read back from its groups of digits, the first three of which are turned around
(`read?_text`). So the texts of stored serial numbers tell all bytes that make up complete ones, and
only those (`ofBytes_determines`).
-/

namespace UniversalRemote

namespace Hex

def bytes? : List Char → Option (List UInt8)
  | [] => some []
  | [_] => none
  | high :: low :: rest => do
    let high ← value? high
    let low ← value? low
    let bytes ← bytes? rest
    return UInt8.ofNat (high * 16 + low) :: bytes

/-- Bytes read back from their digits. -/
theorem bytes?_flatMap_pair (bytes : List UInt8) : bytes? (bytes.flatMap pair) = some bytes := by
  induction bytes with
  | nil => rfl
  | cons b rest ih =>
    have hb := b.toNat_lt
    have hbyte : UInt8.ofNat (b.toNat / 16 % 16 * 16 + b.toNat % 16) = b := by
      rw [← UInt8.toNat_inj, UInt8.toNat_ofNat']
      omega
    rw [List.flatMap_cons, pair, List.cons_append, List.cons_append, List.nil_append, bytes?,
      value?_digit, value?_digit, ih]
    exact congrArg (fun first => some (first :: rest)) hbyte

theorem dash_notMem_flatMap_pair (bytes : List UInt8) : '-' ∉ bytes.flatMap pair := by
  intro h
  obtain ⟨b, -, hpair⟩ := List.mem_flatMap.1 h
  have hdigit : isDigit '-' = true := by
    rcases List.mem_cons.1 hpair with h | h
    · exact h ▸ isDigit_digit _
    · exact List.mem_singleton.1 h ▸ isDigit_digit _
  exact absurd hdigit (by decide)

end Hex

namespace Serial

/-! ## One serial number -/

/-- The parts between dashes, of a text in braces. -/
def parts? (text : String) : Option (List (List Char)) :=
  let inner := text.toList.tail.dropLast
  if text.toList = '\x7b' :: inner ++ ['\x7d'] then some (inner.splitOn '-') else none

/-- The stored bytes of five groups, the first three of which are written the other way round. -/
def restore? : List (List UInt8) → Option (List UInt8)
  | [first, second, third, fourth, fifth] =>
    some (first.reverse ++ second.reverse ++ third.reverse ++ fourth ++ fifth)
  | _ => none

def read? (text : String) : Option (List UInt8) := do
  let parts ← parts? text
  let groups ← parts.mapM Hex.bytes?
  restore? groups

theorem parts?_text (raw : List UInt8) :
    parts? (text raw) = some ((grouped raw).map (·.flatMap Hex.pair)) := by
  have hinner : (text raw).toList.tail.dropLast =
      ['-'].intercalate ((grouped raw).map (·.flatMap Hex.pair)) := by
    rw [text, String.toList_ofList, map_group]
    exact List.dropLast_concat
  have hdash : ∀ part ∈ (grouped raw).map (·.flatMap Hex.pair), '-' ∉ part := by
    intro part hpart
    obtain ⟨bytes, -, rfl⟩ := List.mem_map.1 hpart
    exact Hex.dash_notMem_flatMap_pair bytes
  rw [parts?, hinner, text, String.toList_ofList, map_group, if_pos rfl,
    List.splitOn_intercalate '-' hdash (by simp [grouped, groups])]

theorem map_getD_range (raw : List UInt8) :
    (List.range raw.length).map (fun i => raw.getD i 0) = raw := by
  apply List.ext_getElem
  · rw [List.length_map, List.length_range]
  · intro i _ hi
    rw [List.getElem_map, List.getElem_range, List.getD_eq_getElem?_getD,
      List.getElem?_eq_getElem hi, Option.getD_some]

theorem restore?_grouped {raw : List UInt8} (h : raw.length = 16) :
    restore? (grouped raw) = some raw := by
  -- With the first three groups turned around, the places are those of all bytes in order.
  have hplaces (f : Nat → UInt8) :
      restore? (groups.map fun positions => positions.map f) = some ((List.range 16).map f) := rfl
  rw [grouped, hplaces, ← h, map_getD_range]

/-- A stored serial number is read back from its text. -/
theorem read?_text {raw : List UInt8} (h : raw.length = 16) : read? (text raw) = some raw := by
  have hbytes : ((grouped raw).map (·.flatMap Hex.pair)).mapM Hex.bytes? = some (grouped raw) := by
    rw [List.mapM_map]
    exact (mapM_eq_map fun bytes _ => Hex.bytes?_flatMap_pair bytes).trans
      (congrArg some (List.map_id _))
  rw [read?, parts?_text]
  exact (congrArg (Option.bind · restore?) hbytes).trans (restore?_grouped h)

example : read? "\x7b03020100-0504-0706-0809-0A0B0C0D0E0F\x7d" =
    some ((List.range 16).map UInt8.ofNat) := by
  decide

/-! ## Serial numbers one after another -/

def readAll? (serials : List String) : Option (List UInt8) := do
  return (← serials.mapM read?).flatten

theorem flatten_take_drop (raw : List UInt8) (count : Nat) :
    ((List.range count).map fun i => (raw.drop (16 * i)).take 16).flatten =
      raw.take (16 * count) := by
  induction count with
  | zero => rfl
  | succ count ih =>
    rw [List.range_succ, List.map_append, List.flatten_append, ih, Nat.mul_succ, List.take_add]
    simp

/-- The texts of stored serial numbers read back as the bytes of all complete ones. -/
theorem readAll?_ofBytes (raw : List UInt8) :
    readAll? (ofBytes raw) = some (raw.take (16 * (raw.length / 16))) := by
  have hpieces : (ofBytes raw).mapM read? =
      some ((List.range (raw.length / 16)).map fun i => (raw.drop (16 * i)).take 16) := by
    rw [ofBytes, List.mapM_map]
    exact mapM_eq_map fun i hi => read?_text (length_take_drop (List.mem_range.1 hi))
  rw [readAll?, hpieces, ← flatten_take_drop]
  rfl

/-- Bytes behind the complete serial numbers do not count. -/
theorem ofBytes_take (raw : List UInt8) :
    ofBytes (raw.take (16 * (raw.length / 16))) = ofBytes raw := by
  have hlength : (raw.take (16 * (raw.length / 16))).length / 16 = raw.length / 16 := by
    rw [List.length_take]
    omega
  rw [ofBytes, ofBytes, hlength]
  refine List.map_congr_left fun i hi => congrArg text ?_
  have := List.mem_range.1 hi
  rw [List.drop_take, List.take_take, Nat.min_eq_left (by omega)]

/-- There is a text for each complete serial number. From the texts all bytes of the complete ones
are read back, so that only bytes with the same complete serial numbers have the same texts. -/
theorem ofBytes_determines (raw : List UInt8) :
    (ofBytes raw).length = raw.length / 16 ∧
      readAll? (ofBytes raw) = some (raw.take (16 * (raw.length / 16))) ∧
      ∀ other, ofBytes raw = ofBytes other ↔
        raw.take (16 * (raw.length / 16)) = other.take (16 * (other.length / 16)) := by
  have hlength : (ofBytes raw).length = raw.length / 16 := by
    rw [ofBytes, List.length_map, List.length_range]
  refine ⟨hlength, readAll?_ofBytes raw, fun other => ?_⟩
  constructor
  · intro h
    have hread := congrArg readAll? h
    rwa [readAll?_ofBytes, readAll?_ofBytes, Option.some.injEq] at hread
  · intro h
    rw [← ofBytes_take raw, h, ofBytes_take]

end Serial

end UniversalRemote
