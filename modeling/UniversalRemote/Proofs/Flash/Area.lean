import UniversalRemote.Proofs.Flash.Chip
/-!
# What a header says of its configuration

A header that begins with the cookie of its architecture is taken for the beginning of a
configuration, whatever end it tells. The length that follows from the end fits flash exactly if the
end is neither before the place of configurations nor behind flash (`Architecture.EndsInside`).
-/

namespace UniversalRemote

theorem ByteOrder.room_le_word {width : Nat} (h : width ≤ 4) : room width ≤ 0x100000000 := by
  match width, h with
  | 0, _ | 1, _ | 2, _ | 3, _ | 4, _ => decide

namespace Architecture

variable (a : Architecture)

def configOffset : Nat :=
  a.map.configBase.toNat - a.map.flashBase.toNat

/-- The end address that a header tells. It counts from the flash base, and points four bytes before
the end. -/
def stopIn (header : List UInt8) : Nat :=
  ByteOrder.little.value ((header.drop a.map.endVector).take 3)

/-- A header has all its parts, and begins with the cookie. -/
structure Heads (header : List UInt8) : Prop where
  length_ge : max a.map.cookieSize (a.map.endVector + 3) ≤ header.length
  cookie : ByteOrder.little.value (header.take a.map.cookieSize) = a.map.cookie.toNat

/-- The end that a header tells is not before the place of configurations, and flash of so many
kibibytes reaches up to it. -/
structure EndsInside (header : List UInt8) (kibibytes : UInt32) : Prop where
  offset_le : a.configOffset ≤ a.stopIn header
  le_size : a.stopIn header + 4 ≤ kibibytes.toNat * 1024

variable {a} {header : List UInt8}

theorem Heads.stopIn_lt (h : a.Heads header) : a.stopIn header < 0x1000000 := by
  have hvalue := ByteOrder.little.value_lt ((header.drop a.map.endVector).take 3)
  have hlength := h.length_ge
  have hthree : ((header.drop a.map.endVector).take 3).length = 3 := by
    rw [List.length_take, List.length_drop]
    omega
  rw [hthree] at hvalue
  exact hvalue

end Architecture

namespace ConfigArea

variable {a : Architecture} {kibibytes : UInt32} {header : List UInt8}

/-- A cookie fits its word, so that words are equal where numbers are. -/
theorem ofNat_eq_cookie_iff :
    UInt32.ofNat (ByteOrder.little.value (header.take a.map.cookieSize)) = a.map.cookie ↔
      ByteOrder.little.value (header.take a.map.cookieSize) = a.map.cookie.toNat := by
  have hvalue := ByteOrder.little.value_lt (header.take a.map.cookieSize)
  have hsize := a.cookieSize_le
  have hlength : (header.take a.map.cookieSize).length ≤ 4 := by
    rw [List.length_take]
    omega
  have hword := Nat.lt_of_lt_of_le hvalue (ByteOrder.room_le_word hlength)
  rw [← UInt32.toNat_inj, UInt32.toNat_ofNat', Nat.mod_eq_of_lt hword]

theorem valid_ofHeader_iff :
    (ofHeader a.map kibibytes header).valid = true ↔ a.Heads header := by
  unfold ofHeader
  dsimp only
  split
  · rename_i hshort
    exact ⟨nofun, fun h => absurd h.length_ge (Nat.not_le.2 hshort)⟩
  · rename_i hlong
    split
    · rename_i hcookie
      exact ⟨nofun, fun h => absurd (ofNat_eq_cookie_iff.2 h.cookie) hcookie⟩
    · rename_i hcookie
      have heq := ofNat_eq_cookie_iff.1 (Decidable.not_not.1 hcookie)
      exact ⟨fun _ => ⟨Nat.not_lt.1 hlong, heq⟩, fun _ => rfl⟩

theorem ofHeader_eq (h : a.Heads header) :
    ofHeader a.map kibibytes header =
      ⟨true, UInt32.ofNat (a.stopIn header) - (a.map.configBase - a.map.flashBase) + 4,
        if a.map.configBase - a.map.flashBase ≤ kibibytes <<< 10 then
          kibibytes <<< 10 - (a.map.configBase - a.map.flashBase) else 0⟩ := by
  unfold ofHeader
  dsimp only
  rw [if_neg (Nat.not_lt.2 h.length_ge),
    if_neg (not_not_intro (ofNat_eq_cookie_iff.2 h.cookie))]
  rfl

theorem toNat_configOffset (a : Architecture) :
    (a.map.configBase - a.map.flashBase).toNat = a.configOffset :=
  UInt32.toNat_sub_of_le _ _ a.flashBase_le

/-- An end before the place of configurations wraps around. -/
theorem toNat_used (h : a.Heads header) : (ofHeader a.map kibibytes header).used.toNat =
    (0x100000000 - a.configOffset + a.stopIn header + 4) % 0x100000000 := by
  have hstop := h.stopIn_lt
  have hword : (UInt32.ofNat (a.stopIn header)).toNat = a.stopIn header :=
    Nat.mod_eq_of_lt (by omega)
  have hfour : (4 : UInt32).toNat = 4 := rfl
  rw [ofHeader_eq h, UInt32.toNat_add, UInt32.toNat_sub, toNat_configOffset, hword, hfour,
    Nat.mod_add_mod]

section Room

variable (h : a.Heads header) (hsize : a.configOffset < kibibytes.toNat * 1024)
  (hkibibytes : kibibytes.toNat ≤ 2048)
include h hsize hkibibytes

theorem toNat_capacity : (ofHeader a.map kibibytes header).capacity.toNat =
    kibibytes.toNat * 1024 - a.configOffset := by
  have hshift : (kibibytes <<< 10).toNat = kibibytes.toNat * 1024 := by
    have hten : (10 : UInt32).toNat % 32 = 10 := rfl
    rw [UInt32.toNat_shiftLeft, Nat.shiftLeft_eq, hten]
    exact Nat.mod_eq_of_lt (by omega)
  have hle : a.map.configBase - a.map.flashBase ≤ kibibytes <<< 10 := by
    rw [UInt32.le_iff_toNat_le, toNat_configOffset, hshift]
    omega
  rw [ofHeader_eq h, if_pos hle, UInt32.toNat_sub_of_le _ _ hle, toNat_configOffset, hshift]

theorem fits_iff : (4 ≤ (ofHeader a.map kibibytes header).used.toNat ∧
      (ofHeader a.map kibibytes header).used ≤ (ofHeader a.map kibibytes header).capacity) ↔
    a.EndsInside header kibibytes := by
  have hstop := h.stopIn_lt
  rw [UInt32.le_iff_toNat_le, toNat_used h, toNat_capacity h hsize hkibibytes]
  constructor
  · rintro ⟨hfour, hroom⟩
    constructor <;> omega
  · rintro ⟨hoffset, hend⟩
    constructor <;> omega

end Room

/-- A configuration that ends inside flash lies in flash as a whole. -/
theorem configBase_add_used_le (h : a.Heads header) (hend : a.EndsInside header kibibytes) :
    a.map.configBase.toNat + (ofHeader a.map kibibytes header).used.toNat ≤
      a.map.flashBase.toNat + kibibytes.toNat * 1024 := by
  have hstop := h.stopIn_lt
  have hbase := UInt32.le_iff_toNat_le.1 a.flashBase_le
  obtain ⟨hoffset, hsize⟩ := hend
  rw [toNat_used h]
  unfold Architecture.configOffset at hoffset ⊢
  omega

end ConfigArea

end UniversalRemote
