import UniversalRemote.Proofs.Text.Digits
import UniversalRemote.Proofs.Toml.Quoting
/-!
# Values read back

Texts, numbers and truth values read back in front of the end of their line (`Value.scan_spelling`).
A number has to be told from a date, a time and a real number, which begin as it does.
-/

namespace UniversalRemote

namespace Decimal

theorem digits_zero : digits 0 = ['0'] := by
  rw [digits, Numeral.digits]
  rfl

/-- Only zero itself begins with a zero. -/
theorem exists_digits_eq_cons (n : Nat) :
    ∃ c more, digits n = c :: more ∧ (c = '0' → n = 0) := by
  unfold digits
  fun_induction Numeral.digits Numeral.decimal n with
  | case1 n hn =>
    refine ⟨Hex.digit n, [], rfl, fun hzero => ?_⟩
    have hvalue : some n = some 0 :=
      (Numeral.value?_digit hn).symm.trans (congrArg Hex.value? hzero)
    exact Option.some.inj hvalue
  | case2 n hn ih =>
    obtain ⟨c, more, hdigits, hc⟩ := ih
    refine ⟨c, more ++ [Hex.digit (n % 10)], by rw [hdigits]; rfl, fun hzero => ?_⟩
    have hquotient : n / 10 = 0 := hc hzero
    have hlarge : ¬ n < 10 := hn
    omega

end Decimal

namespace Toml

open Scan

/-- In front of anything but a blank there is none to skip. -/
theorem blanks_of_head?_ne {text : List Char} (hspace : text.head? ≠ some ' ')
    (htab : text.head? ≠ some '\t') : blanks text = some ((), text) := by
  have hstop : text.head?.any isBlank = false := by
    cases text with
    | nil => rfl
    | cons c text => simpa [isBlank] using And.intro hspace htab
  rw [blanks, discard_apply, takeWhile_eq_nil hstop]
  rfl

theorem Quoted.scan_eq_none {text : List Char} (hquote : text.head? ≠ some '"')
    (hapostrophe : text.head? ≠ some '\'') : Quoted.scan text = none := by
  simp [Quoted.scan, multilineBasic, basic, multilineLiteral, literal, multiline,
    char_eq_none hquote, char_eq_none hapostrophe]

/-! ## Digits up to the end of a line -/

section Digits

variable {text rest : List Char}

theorem dropWhile_digits (n : Nat) (rest : List Char) :
    (Decimal.digits n ++ '\n' :: rest).dropWhile Decimal.isDigit = '\n' :: rest := by
  rw [List.dropWhile_append_of_pos fun _ hc => Decimal.isDigit_of_mem_digits hc]
  rfl

theorem head?_ne_of_dropWhile (hline : text.dropWhile Decimal.isDigit = '\n' :: rest) {c : Char}
    (hc : Decimal.isDigit c = false) (hne : c ≠ '\n') : text.head? ≠ some c := by
  intro hhead
  obtain ⟨later, rfl⟩ := List.head?_eq_some_iff.1 hhead
  rw [List.dropWhile_cons_of_neg (by simp [hc])] at hline
  exact hne (List.cons.inj hline).1

theorem Moment.dropWhile_of_field {width low high n : Nat}
    (h : field width low high text = some (n, rest)) :
    rest.dropWhile Decimal.isDigit = text.dropWhile Decimal.isDigit := by
  rw [field, bind_apply, Option.bind_eq_some_iff] at h
  obtain ⟨⟨digits, behind⟩, hdigits, hfound⟩ := h
  have hbehind : behind = rest := by
    revert hfound
    dsimp only
    split
    · exact fun h => (Prod.mk.inj (Option.some.inj h)).2
    · exact nofun
  rw [← hbehind, dropWhile_of_exactly hdigits]

/-- Behind a number of so many digits there is a further digit or the end of the line. -/
theorem Moment.field_char (hline : text.dropWhile Decimal.isDigit = '\n' :: rest) {c : Char}
    (hc : Decimal.isDigit c = false) (hne : c ≠ '\n') (width low high : Nat)
    (next : Nat → Unit → Scan α) :
    (field width low high >>= fun n => char c >>= next n) text = none := by
  rw [bind_apply]
  cases hfield : field width low high text with
  | none => rfl
  | some found =>
    have hbehind := (dropWhile_of_field hfield).trans hline
    have hchar := char_eq_none (head?_ne_of_dropWhile hbehind hc hne)
    simp [hchar]

theorem Moment.scan_eq_none (hline : text.dropWhile Decimal.isDigit = '\n' :: rest) :
    Moment.scan text = none := by
  have hdate : calendarDate text = none := field_char hline rfl (by decide) 4 0 9999 _
  have htime : timeOfDay text = none := field_char hline rfl (by decide) 2 0 23 _
  rw [scan, orElse_apply, bind_apply, hdate, map_apply, htime]
  rfl

end Digits

namespace Number

variable {digits rest : List Char}

def nextDigit : Scan Char :=
  satisfy Decimal.isDigit <|> char '_' *> satisfy Decimal.isDigit

theorem repeats_digits (hdigits : ∀ c ∈ digits, Decimal.isDigit c = true) (rest : List Char) :
    Repeats nextDigit (digits ++ '\n' :: rest) digits ('\n' :: rest) := by
  induction digits with
  | nil => exact .stop rfl
  | cons c digits ih =>
    obtain ⟨hc, hdigits⟩ := List.forall_mem_cons.1 hdigits
    have hnext (tail : List Char) : nextDigit ([c] ++ tail) = some (c, tail) := by
      simp [nextDigit, hc]
    exact (Repeats.cons (hnext _) (by simp) (ih hdigits) :)

theorem digitRun_append (hdigits : ∀ c ∈ digits, Decimal.isDigit c = true) (hne : digits ≠ []) :
    digitRun 10 (digits ++ '\n' :: rest) = some (digits, '\n' :: rest) := by
  have hdigit : (fun c => (Hex.value? c).any (· < 10)) = Decimal.isDigit :=
    funext fun c => (Decimal.isDigit_eq c).symm
  obtain ⟨c, digits, rfl⟩ := List.exists_cons_of_ne_nil hne
  obtain ⟨hc, hdigits⟩ := List.forall_mem_cons.1 hdigits
  have hmany := (repeats_digits hdigits rest).many
  rw [nextDigit] at hmany
  simp [digitRun, hdigit, hc, hmany]

/-- A number is read up to its last digit. -/
theorem wholeDigits_digits (n : Nat) (rest : List Char) :
    wholeDigits (Decimal.digits n ++ '\n' :: rest) = some (Decimal.digits n, '\n' :: rest) := by
  obtain ⟨c, more, hdigits, hzero⟩ := Decimal.exists_digits_eq_cons n
  by_cases hc : c = '0'
  · obtain rfl := hzero hc
    rw [Decimal.digits_zero]
    rfl
  · have hrun : digitRun 10 (Decimal.digits n ++ '\n' :: rest) =
        some (Decimal.digits n, '\n' :: rest) :=
      digitRun_append (fun _ hc => Decimal.isDigit_of_mem_digits hc) (by simp [hdigits])
    have hchar : char '0' (Decimal.digits n ++ '\n' :: rest) = none := by
      simp [hdigits, hc]
    rw [wholeDigits, orElse_apply, seqRight_apply, hchar, hrun]
    rfl

theorem sign_digits (n : Nat) (rest : List Char) :
    sign (Decimal.digits n ++ '\n' :: rest) = some (false, Decimal.digits n ++ '\n' :: rest) := by
  have hline := dropWhile_digits n rest
  have hminus := char_eq_none (head?_ne_of_dropWhile hline (c := '-') rfl (by decide))
  have hplus := char_eq_none (head?_ne_of_dropWhile hline (c := '+') rfl (by decide))
  simp [sign, hminus, hplus]

theorem real_digits (n : Nat) (rest : List Char) :
    real (Decimal.digits n ++ '\n' :: rest) = none := by
  have hline := dropWhile_digits n rest
  have hinf := char_eq_none (head?_ne_of_dropWhile hline (c := 'i') rfl (by decide))
  have hnan := char_eq_none (head?_ne_of_dropWhile hline (c := 'n') rfl (by decide))
  have htail : tail ('\n' :: rest) = none := rfl
  have hdecimal : decimalReal (Decimal.digits n ++ '\n' :: rest) = none := by
    rw [decimalReal, bind_apply, sign_digits, Option.bind_some, bind_apply, wholeDigits_digits,
      Option.bind_some, bind_apply, htail]
    rfl
  have hspecial : specialReal (Decimal.digits n ++ '\n' :: rest) = none := by
    rw [specialReal, bind_apply, sign_digits]
    simp [hinf, hnan]
  rw [real, orElse_apply, hdecimal, hspecial]
  rfl

theorem based_digits (n : Nat) (rest : List Char) {letter : Char} (hletter : letter ≠ '\n')
    (base : Nat) : based letter base (Decimal.digits n ++ '\n' :: rest) = none := by
  have hword : word ['0', letter] (Decimal.digits n ++ '\n' :: rest) = none := by
    obtain ⟨c, more, hdigits, hzero⟩ := Decimal.exists_digits_eq_cons n
    by_cases hc : c = '0'
    · obtain rfl := hzero hc
      simp [Decimal.digits_zero, hletter.symm]
    · simp [hdigits, hc]
  rw [based, bind_apply, hword]
  rfl

theorem integer_digits {n : Nat} (h : n < 0x8000000000000000) (rest : List Char) :
    integer (Decimal.digits n ++ '\n' :: rest) = some ((n : Int), '\n' :: rest) := by
  have hrange : -0x8000000000000000 ≤ (n : Int) ∧ (n : Int) < 0x8000000000000000 := by omega
  have hread : Numeral.ofDigits 10 (Decimal.digits n) = n :=
    Numeral.ofDigits_digits Numeral.decimal n
  have hdecimal : decimal (Decimal.digits n ++ '\n' :: rest) = some ((n : Int), '\n' :: rest) := by
    rw [decimal, bind_apply, sign_digits, Option.bind_some, bind_apply, wholeDigits_digits,
      Option.bind_some, hread]
    simp [within64, hrange]
  simp [integer, based_digits, hdecimal]

end Number

/-! ## Values -/

namespace Value

variable {v : Value} {spelled : List Char}

theorem simple_spelling (h : Spelling v spelled) (rest : List Char) :
    simple (spelled ++ '\n' :: rest) = some (v, '\n' :: rest) := by
  cases h with
  | @string text spelled h =>
    have hscan : Quoted.scan (spelled ++ '\n' :: rest) = some (text.toList, '\n' :: rest) :=
      Quoted.scan_spelling h (by simp) (by simp)
    simp [simple, hscan]
  | @integer n h =>
    have hline := dropWhile_digits n rest
    have hquoted : Quoted.scan (Decimal.digits n ++ '\n' :: rest) = none :=
      Quoted.scan_eq_none (head?_ne_of_dropWhile hline rfl (by decide))
        (head?_ne_of_dropWhile hline rfl (by decide))
    have htrue := char_eq_none (head?_ne_of_dropWhile hline (c := 't') rfl (by decide))
    have hfalse := char_eq_none (head?_ne_of_dropWhile hline (c := 'f') rfl (by decide))
    have htruth : truth (Decimal.digits n ++ '\n' :: rest) = none := by
      simp [truth, htrue, hfalse]
    simp [simple, hquoted, htruth, Moment.scan_eq_none hline, Number.real_digits,
      Number.integer_digits h]
  | boolean b => cases b <;> rfl

/-- What means a value is read back as that value, however deep it may be. -/
theorem scan_spelling (h : Spelling v spelled) (depth : Nat) (rest : List Char) :
    scan depth (spelled ++ '\n' :: rest) = some (v, '\n' :: rest) := by
  have hsimple := simple_spelling h rest
  cases depth with
  | zero => exact hsimple
  | succ depth =>
    rw [scan, orElse_apply, orElse_apply, hsimple]
    rfl

/-- No value begins with a blank. -/
theorem blanks_spelling (h : Spelling v spelled) (rest : List Char) :
    blanks (spelled ++ '\n' :: rest) = some ((), spelled ++ '\n' :: rest) := by
  cases h with
  | string h => obtain ⟨tail, rfl | rfl⟩ := h.exists_cons <;> rfl
  | @integer n h =>
    have hline := dropWhile_digits n rest
    exact blanks_of_head?_ne (head?_ne_of_dropWhile hline rfl (by decide))
      (head?_ne_of_dropWhile hline rfl (by decide))
  | boolean b => cases b <;> rfl

end Value

end Toml

end UniversalRemote
