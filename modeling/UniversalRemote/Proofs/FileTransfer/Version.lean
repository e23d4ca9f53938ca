import Mathlib.Data.Bool.AllAny
import UniversalRemote.Proofs.FileTransfer.Description
import UniversalRemote.Proofs.FileTransfer.Survey
/-!
# Versions in a description

The version of the firmware is two numbers with a point between them. The second is looked for
behind two characters, so that it is found only where the first has one digit. `identify_version`
says what a remote with a version of any width is identified with, `identify_version_two_digits` that
the second number can be lost.
-/

namespace UniversalRemote

theorem Decimal.not_blank_of_isDigit {c : Char} (h : Decimal.isDigit c = true) :
    Text.isBlank c = false := by
  have hrange := Decimal.isDigit_iff.1 h
  simp only [Text.isBlank, Bool.or_eq_false_iff, Bool.and_eq_false_iff, decide_eq_false_iff_not,
    beq_eq_false_iff_ne]
  omega

namespace Sysinfo

/-! ## Two numbers and a point -/

section Version

variable {major minor : List Char}

theorem number_encode (cs : List Char)
    (h : Numeral.ofDigits 10 (cs.takeWhile Decimal.isDigit) < 0x100000000) :
    number 10 (Utf8.encode (String.ofList cs)) =
      Numeral.ofDigits 10 (cs.takeWhile Decimal.isDigit) := by
  have hdigit : Decimal.isDigit = fun c => (Hex.value? c).any (· < 10) := funext Decimal.isDigit_eq
  rw [hdigit] at h ⊢
  rw [number, digits_encode]
  exact if_pos h

theorem takeWhile_isDigit (hmajor : ∀ c ∈ major, Decimal.isDigit c = true) (rest : List Char) :
    (major ++ '.' :: rest).takeWhile Decimal.isDigit = major := by
  have hpoint : ¬ Decimal.isDigit '.' = true := by decide
  rw [List.takeWhile_append_of_pos hmajor, List.takeWhile_cons_of_neg hpoint, List.append_nil]

/-- Behind two characters stand the digits of the second number if the first has one digit, and
what is left of the first number otherwise. -/
theorem takeWhile_isDigit_drop (hmajor : ∀ c ∈ major, Decimal.isDigit c = true)
    (hminor : ∀ c ∈ minor, Decimal.isDigit c = true) (hnonempty : major ≠ []) :
    ((major ++ '.' :: minor).drop 2).takeWhile Decimal.isDigit =
      if major.length = 1 then minor else major.drop 2 := by
  match major, hnonempty with
  | [d], _ => exact List.takeWhile_eq_self_iff.2 hminor
  | d :: e :: more, _ =>
    have hmore : ∀ c ∈ more, Decimal.isDigit c = true := fun c hc => hmajor c (by simp [hc])
    exact takeWhile_isDigit hmore minor

/-- Two decimal numbers of 16 bits, each of any number of digits. -/
structure IsVersion (major minor : List Char) : Prop where
  nonempty : major ≠ []
  major_digits : ∀ c ∈ major, Decimal.isDigit c = true
  minor_digits : ∀ c ∈ minor, Decimal.isDigit c = true
  major_lt : Numeral.ofDigits 10 major < 0x10000
  minor_lt : Numeral.ofDigits 10 minor < 0x10000

namespace IsVersion

variable (h : IsVersion major minor)
include h

theorem digit_or_point {c : Char} (hc : c ∈ major ++ '.' :: minor) :
    Decimal.isDigit c = true ∨ c = '.' := by
  rcases List.mem_append.1 hc with hc | hc
  · exact .inl (h.major_digits c hc)
  rcases List.mem_cons.1 hc with rfl | hc
  · exact .inr rfl
  · exact .inl (h.minor_digits c hc)

theorem not_blank {c : Char} (hc : c ∈ major ++ '.' :: minor) : Text.isBlank c = false := by
  rcases h.digit_or_point hc with hdigit | rfl
  · exact Decimal.not_blank_of_isDigit hdigit
  · decide

theorem ascii {c : Char} (hc : c ∈ major ++ '.' :: minor) : c.toNat < 0x80 := by
  rcases h.digit_or_point hc with hdigit | rfl
  · have := Decimal.isDigit_iff.1 hdigit
    omega
  · decide

theorem number_major : number 10 (Utf8.encode (String.ofList (major ++ '.' :: minor))) =
    Numeral.ofDigits 10 major := by
  have hleading := takeWhile_isDigit h.major_digits minor
  have hlt := h.major_lt
  rw [number_encode _ (by rw [hleading]; omega), hleading]

/-- What is read in the place of the second number has 16 bits, too. -/
theorem number_minor_lt : (if major.length = 1 then Numeral.ofDigits 10 minor
    else Numeral.ofDigits 10 (major.drop 2)) < 0x10000 := by
  split
  · exact h.minor_lt
  · exact Nat.lt_of_le_of_lt (Numeral.ofDigits_drop_le 10 2 major) h.major_lt

theorem number_minor :
    number 10 ((Utf8.encode (String.ofList (major ++ '.' :: minor))).drop 2) =
      if major.length = 1 then Numeral.ofDigits 10 minor
      else Numeral.ofDigits 10 (major.drop 2) := by
  have hleading := takeWhile_isDigit_drop h.major_digits h.minor_digits h.nonempty
  have hlt := h.number_minor_lt
  rw [← apply_ite (Numeral.ofDigits 10), ← hleading] at hlt ⊢
  rw [Utf8.drop_encode fun c hc => h.ascii (List.mem_of_mem_take hc)]
  exact number_encode _ (by omega)

end IsVersion

end Version

end Sysinfo

/-! ## Versions of remotes -/

namespace FileTransfer

open Sysinfo

theorem Survey.firmware_eq {q : Survey} {major minor : List Char} (h : IsVersion major minor)
    (hline : FirstTells "fw_ver" (major ++ '.' :: minor) q.text) :
    q.identity.firmwareMajor.toNat = Numeral.ofDigits 10 major ∧
      q.identity.firmwareMinor.toNat =
        if major.length = 1 then Numeral.ofDigits 10 minor
        else Numeral.ofDigits 10 (major.drop 2) := by
  have hkey : IsKey "fw_ver" := ⟨by decide, by decide⟩
  have hvalue : value q.text "fw_ver" = major ++ '.' :: minor := by
    refine hkey.value_of_firstTells hline ?_ ?_
    · exact (Option.any_eq_false _ _).2 fun c hc => h.not_blank (List.mem_of_mem_head? hc)
    · exact (Option.any_eq_false _ _).2 fun c hc => h.not_blank (List.mem_of_mem_getLast? hc)
  have hmajor : q.identity.firmwareMajor = UInt16.ofNat (Numeral.ofDigits 10 major) := by
    rw [← h.number_major, ← hvalue]
    rfl
  have hminor : q.identity.firmwareMinor = UInt16.ofNat (if major.length = 1 then
      Numeral.ofDigits 10 minor else Numeral.ofDigits 10 (major.drop 2)) := by
    rw [← h.number_minor, ← hvalue]
    rfl
  rw [hmajor, hminor, UInt16.toNat_ofNat', UInt16.toNat_ofNat']
  exact ⟨Nat.mod_eq_of_lt h.major_lt, Nat.mod_eq_of_lt h.number_minor_lt⟩

/-- A remote whose description tells a version is identified with its first number, whatever the
other lines say. It is identified with its second number too if the first has one digit, and
otherwise with what the digits of the first spell behind two of them. -/
theorem identify_version {major minor : List Char} (h : IsVersion major minor) {q : Survey}
    (hvalid : q.Valid) (hline : FirstTells "fw_ver" (major ++ '.' :: minor) q.text) (s : Script)
    (hwrites : ∀ n, s.failures n = none) {rest : List ScriptedRead}
    (hreads : s.reads = q.reports.map .report ++ rest) :
    ∃ identity, (identify.run.run Script.device s).result = .ok identity ∧
      identity.firmwareMajor.toNat = Numeral.ofDigits 10 major ∧
      identity.firmwareMinor.toNat =
        if major.length = 1 then Numeral.ofDigits 10 minor
        else Numeral.ofDigits 10 (major.drop 2) :=
  ⟨q.identity, (identify_eq_ok_iff s hwrites _).2 ⟨q, hvalid, rfl, rest, hreads⟩,
    q.firmware_eq h hline⟩

/-- Only the first of two lines counts. -/
theorem identify_version_first_line :
    let q := Survey.ofText "skin 0x6A\nfw_ver 4.5\r\nfw_ver 12.34\n".toList
    ∃ identity, (identify.run.run Script.device { reads := q.reports.map .report }).result =
        .ok identity ∧
      identity.firmwareMajor.toNat = 4 ∧ identity.firmwareMinor.toNat = 5 := by
  intro q
  have hversion : IsVersion ['4'] ['5'] :=
    ⟨by decide, List.all_iff_forall_prop.1 rfl, List.all_iff_forall_prop.1 rfl, by decide,
      by decide⟩
  have htext : q.text = "skin 0x6A\nfw_ver 4.5\r\nfw_ver 12.34\n".toList :=
    Survey.text_ofText (List.all_iff_forall_prop.1 rfl)
  have hline : FirstTells "fw_ver" (['4'] ++ '.' :: ['5']) q.text := by
    rw [htext]
    refine ⟨["skin 0x6A".toList], "fw_ver 4.5\r".toList, ["fw_ver 12.34".toList], by decide, ?_,
      0, [], ['\r'], by decide, nofun, List.all_iff_forall_prop.1 rfl⟩
    rintro _ hother ⟨colons, rest, rfl⟩
    simp at hother
  exact identify_version hversion (Survey.valid_ofText (by decide)) hline _ (fun _ => rfl)
    (List.append_nil _).symm

/-- The second number is lost behind a first one of two digits. -/
theorem identify_version_two_digits :
    let major := ['1', '2']
    let minor := ['3', '4']
    let q := Survey.ofText "fw_ver 12.34\narch 0xC\n".toList
    IsVersion major minor ∧ q.Valid ∧ FirstTells "fw_ver" (major ++ '.' :: minor) q.text ∧
      ∃ identity, (identify.run.run Script.device { reads := q.reports.map .report }).result =
          .ok identity ∧
        identity.firmwareMinor.toNat = 0 ∧ Numeral.ofDigits 10 minor = 34 := by
  intro major minor q
  have hversion : IsVersion major minor :=
    ⟨by decide, List.all_iff_forall_prop.1 rfl, List.all_iff_forall_prop.1 rfl, by decide,
      by decide⟩
  have hvalid : q.Valid := Survey.valid_ofText (by decide)
  have htext : q.text = "fw_ver 12.34\narch 0xC\n".toList :=
    Survey.text_ofText (List.all_iff_forall_prop.1 rfl)
  have hline : FirstTells "fw_ver" (major ++ '.' :: minor) q.text := by
    rw [htext]
    exact ⟨[], "fw_ver 12.34".toList, ["arch 0xC".toList], by decide, nofun,
      0, [], [], by decide, nofun, nofun⟩
  let s : Script := { reads := q.reports.map .report }
  have hresult := (identify_eq_ok_iff s (fun _ => rfl) q.identity).2
    ⟨q, hvalid, rfl, [], (List.append_nil _).symm⟩
  exact ⟨hversion, hvalid, hline, q.identity, hresult, (q.firmware_eq hversion hline).2, by decide⟩

end FileTransfer

end UniversalRemote
