import Mathlib.Data.Bool.AllAny
import Mathlib.Tactic.Ring
import UniversalRemote.Proofs.FileTransfer.Description
import UniversalRemote.Proofs.FileTransfer.Survey
/-!
# Serial numbers in a description

A description tells the serial numbers as 96 characters behind a mark, two for each byte. The first
of two may be a plus sign, which counts as a zero; all others have to be hexadecimal digits.
`identify_serials` says which values are taken and which bytes they spell, over any characters.
-/

namespace UniversalRemote

namespace ByteOrder

theorem littleValue_append (first rest : List UInt8) :
    littleValue (first ++ rest) = littleValue first + 256 ^ first.length * littleValue rest := by
  induction first with
  | nil => simp [littleValue]
  | cons b first ih =>
    rw [List.cons_append, littleValue, littleValue, ih, List.length_cons, Nat.pow_succ]
    ring

theorem big_value_cons (b : UInt8) (rest : List UInt8) :
    big.value (b :: rest) = b.toNat * 256 ^ rest.length + big.value rest := by
  rw [value, value, List.reverse_cons, littleValue_append, List.length_reverse]
  simp only [littleValue]
  ring

theorem littleBytes_littleValue (bytes : List UInt8) :
    littleBytes bytes.length (littleValue bytes) = bytes := by
  induction bytes with
  | nil => rfl
  | cons b rest ih =>
    have hb := b.toNat_lt
    have hfirst : UInt8.ofNat (b.toNat + 256 * littleValue rest) = b := by
      rw [← UInt8.toNat_inj, UInt8.toNat_ofNat']
      omega
    have hrest : (b.toNat + 256 * littleValue rest) / 256 = littleValue rest := by omega
    rw [List.length_cons, littleValue, littleBytes, hfirst, hrest, ih]

/-- Bytes are those of the number that they spell. -/
theorem bytes_value (order : ByteOrder) (bytes : List UInt8) :
    order.bytes bytes.length (order.value bytes) = bytes := by
  cases order with
  | little => exact littleBytes_littleValue bytes
  | big =>
    rw [ByteOrder.bytes, value, ← List.length_reverse, littleBytes_littleValue,
      List.reverse_reverse]

end ByteOrder

namespace Sysinfo

/-! ## Pairs of characters -/

/-- Of any two characters the second is a digit, and the first a digit or a plus sign. -/
def Paired (digits : List Char) : Prop :=
  ∀ i c, digits[i]? = some c → Hex.isDigit c = true ∨ i % 2 = 0 ∧ c = '+'

/-- There is a byte for any two characters, and bytes and characters spell the same number, in which
characters other than digits count as zero. -/
def Denotes (digits : List Char) (bytes : List UInt8) : Prop :=
  digits.length = 2 * bytes.length ∧ ByteOrder.big.value bytes = Numeral.ofDigits 16 digits

theorem Denotes.unique {digits : List Char} {first second : List UInt8}
    (hfirst : Denotes digits first) (hsecond : Denotes digits second) : first = second := by
  have hlength : first.length = second.length := by
    have := hfirst.1.symm.trans hsecond.1
    omega
  rw [← ByteOrder.big.bytes_value first, hlength, hfirst.2, ← hsecond.2,
    ByteOrder.big.bytes_value second]

section Pairs

variable {c d : Char} {digits : List Char}

theorem paired_nil : Paired [] :=
  fun _ _ h => nomatch h

theorem paired_cons_cons : Paired (c :: d :: digits) ↔
    (Hex.isDigit c = true ∨ c = '+') ∧ Hex.isDigit d = true ∧ Paired digits := by
  constructor
  · intro h
    refine ⟨(h 0 c rfl).imp_right And.right, ?_, fun i e he => ?_⟩
    · exact (h 1 d rfl).resolve_right fun hodd => nomatch hodd.1
    · refine (h (i + 2) e he).imp_right fun heven => ⟨?_, heven.2⟩
      omega
  · rintro ⟨hc, hd, hrest⟩ i e he
    match i with
    | 0 =>
      obtain rfl := Option.some.inj he
      exact hc.imp_right fun hplus => ⟨rfl, hplus⟩
    | 1 =>
      obtain rfl := Option.some.inj he
      exact .inl hd
    | i + 2 =>
      refine (hrest i e he).imp_right fun heven => ⟨?_, heven.2⟩
      omega

theorem denotes_cons_cons {b : UInt8} {bytes : List UInt8}
    (hb : b.toNat = (Hex.value? c).getD 0 * 16 + (Hex.value? d).getD 0) (h : Denotes digits bytes) :
    Denotes (c :: d :: digits) (b :: bytes) := by
  obtain ⟨hlength, hvalue⟩ := h
  refine ⟨by rw [List.length_cons, List.length_cons, List.length_cons, hlength]; omega, ?_⟩
  have hpair : Numeral.ofDigits 16 [c, d] = b.toNat := by
    rw [hb, Numeral.ofDigits, List.foldl_cons, List.foldl_cons, List.foldl_nil, Nat.zero_mul,
      Nat.zero_add]
  have hdigits : c :: d :: digits = [c, d] ++ digits := rfl
  have hpower : 16 ^ (2 * bytes.length) = 256 ^ bytes.length := Nat.pow_mul 16 2 _
  rw [ByteOrder.big_value_cons, hvalue, hdigits, Numeral.ofDigits_append, hpair, hlength, hpower]

/-- Characters in pairs have one byte each. -/
theorem Paired.ascii (h : Paired digits) : ∀ c ∈ digits, c.toNat < 0x80 := by
  intro c hc
  obtain ⟨i, hi⟩ := List.mem_iff_getElem?.1 hc
  rcases h i c hi with hdigit | ⟨-, rfl⟩
  · obtain ⟨d, hd⟩ := Option.isSome_iff_exists.1 hdigit
    exact (Hex.value?_eq_some hd).2
  · decide

theorem Paired.ascii_mark (h : Paired digits) : ∀ c ∈ '0' :: 'x' :: digits, c.toNat < 0x80 :=
  List.forall_mem_cons.2 ⟨by decide, List.forall_mem_cons.2 ⟨by decide, h.ascii⟩⟩

theorem digit?_sixteen {c : Char} (h : c.toNat < 0x80) :
    digit? 16 (UInt8.ofNat c.toNat) = Hex.value? c := by
  rw [digit?_ofNat 16 h]
  cases hvalue : Hex.value? c with
  | none => rfl
  | some d => exact if_pos (decide_eq_true (Hex.value?_eq_some hvalue).1)

theorem ofNat_eq_plus_iff {c : Char} (h : c.toNat < 0x80) :
    UInt8.ofNat c.toNat = 0x2B ↔ c = '+' := by
  constructor
  · intro hbyte
    have hnat := congrArg UInt8.toNat hbyte
    rw [UInt8.toNat_ofNat', Nat.mod_eq_of_lt (by omega)] at hnat
    exact Char.toNat_inj.1 hnat
  · rintro rfl
    rfl

theorem pair?_eq_some (hc : Hex.isDigit c = true ∨ c = '+') (hd : Hex.isDigit d = true) :
    ∃ b, pair? (UInt8.ofNat c.toNat) (UInt8.ofNat d.toNat) = some b ∧
      b.toNat = (Hex.value? c).getD 0 * 16 + (Hex.value? d).getD 0 := by
  obtain ⟨low, hlow⟩ := Option.isSome_iff_exists.1 hd
  obtain ⟨hlow_lt, hd_ascii⟩ := Hex.value?_eq_some hlow
  have hlow_digit := (digit?_sixteen hd_ascii).trans hlow
  by_cases hplus : c = '+'
  · have hbyte : UInt8.ofNat c.toNat = 0x2B := by rw [hplus]; rfl
    refine ⟨UInt8.ofNat low, ?_, ?_⟩
    · rw [pair?, hlow_digit, hbyte]
      rfl
    · have hzero : (Hex.value? '+').getD 0 = 0 := rfl
      rw [hplus, hzero, hlow, Option.getD_some, UInt8.toNat_ofNat']
      omega
  · obtain ⟨high, hhigh⟩ := Option.isSome_iff_exists.1 (hc.resolve_right hplus)
    obtain ⟨hhigh_lt, hc_ascii⟩ := Hex.value?_eq_some hhigh
    have hhigh_digit := (digit?_sixteen hc_ascii).trans hhigh
    refine ⟨UInt8.ofNat (high * 16 + low), ?_, ?_⟩
    · rw [pair?, hlow_digit, hhigh_digit]
      exact if_neg (mt (ofNat_eq_plus_iff hc_ascii).1 hplus)
    · rw [hhigh, hlow, Option.getD_some, Option.getD_some, UInt8.toNat_ofNat']
      omega

theorem isDigit_of_digit? {b : UInt8} {n : Nat} (h : digit? 16 b = some n) :
    Hex.isDigit (Char.ofNat b.toNat) = true :=
  Option.isSome_iff_exists.2 ⟨n, (Option.filter_eq_some_iff.1 h).1⟩

theorem exists_of_pair? {high low b : UInt8} (h : pair? high low = some b) :
    ∃ c d : Char, high = UInt8.ofNat c.toNat ∧ low = UInt8.ofNat d.toNat ∧
      (Hex.isDigit c = true ∨ c = '+') ∧ Hex.isDigit d = true := by
  have hbyte : ∀ b : UInt8, b = UInt8.ofNat (Char.ofNat b.toNat).toNat := by
    intro b
    rw [Utf8.toNat_ofNat_byte, UInt8.ofNat_toNat]
  refine ⟨_, _, hbyte high, hbyte low, ?_⟩
  obtain ⟨l, hlow, h⟩ := Option.bind_eq_some_iff.1 h
  refine ⟨?_, isDigit_of_digit? hlow⟩
  split at h
  · rename_i hplus
    rw [hplus]
    exact .inr rfl
  · obtain ⟨d, hhigh, -⟩ := Option.bind_eq_some_iff.1 h
    exact .inl (isDigit_of_digit? hhigh)

/-- Characters in pairs are taken, and give the bytes that they denote. -/
theorem Paired.pairs? {count : Nat} (h : Paired digits) (hlength : digits.length = 2 * count)
    (rest : List UInt8) :
    ∃ bytes, Sysinfo.pairs? count (digits.map (fun c => UInt8.ofNat c.toNat) ++ rest) = some bytes ∧
      Denotes digits bytes := by
  induction count generalizing digits with
  | zero =>
    obtain rfl := List.eq_nil_of_length_eq_zero hlength
    exact ⟨[], rfl, rfl, rfl⟩
  | succ count ih =>
    match digits, hlength with
    | c :: d :: digits, hlength =>
      obtain ⟨hc, hd, hdigits⟩ := paired_cons_cons.1 h
      obtain ⟨b, hpair, hb⟩ := pair?_eq_some hc hd
      obtain ⟨bytes, hpairs, hbytes⟩ := ih hdigits (by simp at hlength; omega)
      refine ⟨b :: bytes, ?_, denotes_cons_cons hb hbytes⟩
      simp only [List.map_cons, List.cons_append, Sysinfo.pairs?, hpair, hpairs]
      rfl

/-- Only characters in pairs are taken. -/
theorem exists_of_pairs? {count : Nat} {bytes out : List UInt8}
    (h : pairs? count bytes = some out) : ∃ digits rest, bytes = digits.map (fun c => UInt8.ofNat c.toNat) ++ rest ∧
      digits.length = 2 * count ∧ Paired digits := by
  induction count generalizing bytes out with
  | zero => exact ⟨[], bytes, rfl, rfl, paired_nil⟩
  | succ count ih =>
    match bytes with
    | [] => cases h
    | [_] => cases h
    | high :: low :: bytes =>
      obtain ⟨b, hpair, h⟩ := Option.bind_eq_some_iff.1 h
      obtain ⟨later, hpairs, -⟩ := Option.bind_eq_some_iff.1 h
      obtain ⟨c, d, rfl, rfl, hc, hd⟩ := exists_of_pair? hpair
      obtain ⟨digits, rest, rfl, hlength, hpaired⟩ := ih hpairs
      exact ⟨c :: d :: digits, rest, rfl, by simp [hlength]; omega,
        paired_cons_cons.2 ⟨hc, hd, hpaired⟩⟩

end Pairs

/-! ## Marked values -/

/-- The 96 characters behind the mark that begins a value. -/
def Marked (value digits : List Char) : Prop :=
  digits.length = 96 ∧ ∃ rest, value = '0' :: 'x' :: (digits ++ rest)

/-- A value is taken exactly if it has 48 pairs of characters behind its mark. -/
theorem guid?_encode_eq_some_iff {value : List Char} {bytes : List UInt8} :
    guid? (Utf8.encode (String.ofList value)) = some bytes ↔
      ∃ digits, Marked value digits ∧ Paired digits ∧ Denotes digits bytes := by
  have hforward : ∀ {digits : List Char} (rest : List Char), digits.length = 96 → Paired digits →
      ∃ bytes, guid? (Utf8.encode (String.ofList ('0' :: 'x' :: (digits ++ rest)))) = some bytes ∧
        Denotes digits bytes := by
    intro digits rest hlength hpaired
    have hcount : digits.length = 2 * 48 := hlength
    obtain ⟨bytes, hpairs, hbytes⟩ := hpaired.pairs? hcount (Utf8.encode (String.ofList rest))
    refine ⟨bytes, ?_, hbytes⟩
    rw [← List.cons_append, ← List.cons_append, Utf8.encode_append, Utf8.encode_ascii hpaired.ascii_mark]
    exact hpairs
  constructor
  · intro h
    obtain ⟨tail, hencoded, hpairs⟩ : ∃ tail, Utf8.encode (String.ofList value) =
        0x30 :: 0x78 :: tail ∧ pairs? 48 tail = some bytes := by
      unfold guid? at h
      split at h
      · exact ⟨_, ‹_›, h⟩
      · cases h
    obtain ⟨digits, rest, rfl, hlength, hpaired⟩ := exists_of_pairs? hpairs
    have hvalue : value = '0' :: 'x' :: (digits ++ Utf8.scalars rest) := by
      rw [← Utf8.scalars_encode value, hencoded]
      exact Utf8.scalars_ascii hpaired.ascii_mark rest
    rw [hvalue] at h
    obtain ⟨taken, htaken, hdenotes⟩ := hforward _ hlength hpaired
    rw [htaken] at h
    exact ⟨digits, ⟨hlength, _, hvalue⟩, hpaired, Option.some.inj h ▸ hdenotes⟩
  · rintro ⟨digits, ⟨hlength, rest, rfl⟩, hpaired, hbytes⟩
    obtain ⟨taken, htaken, hdenotes⟩ := hforward rest hlength hpaired
    rw [htaken, hdenotes.unique hbytes]

/-- Without plus signs, the characters in pairs are just digits. -/
theorem paired_iff_of_notMem {digits : List Char} (h : '+' ∉ digits) :
    Paired digits ↔ ∀ c ∈ digits, Hex.isDigit c = true := by
  constructor
  · intro hpaired c hc
    obtain ⟨i, hi⟩ := List.mem_iff_getElem?.1 hc
    exact (hpaired i c hi).resolve_right fun hplus => h (hplus.2 ▸ hc)
  · exact fun hdigits i c hi => .inl (hdigits c (List.mem_of_getElem? hi))

theorem Marked.eq_take {value digits : List Char} (h : Marked value digits) :
    digits = (value.drop 2).take 96 := by
  obtain ⟨hlength, rest, rfl⟩ := h
  exact (List.take_left' hlength).symm

end Sysinfo

/-! ## Serial numbers of remotes -/

namespace FileTransfer

open Sysinfo

/-- A remote is identified with the serial numbers that its description has in 48 pairs of
characters behind a mark, and with none if there are no such characters. Where no plus sign stands
among them, they are 96 hexadecimal digits. -/
theorem identify_serials {q : Survey} (hvalid : q.Valid) (s : Script)
    (hwrites : ∀ n, s.failures n = none) {rest : List ScriptedRead}
    (hreads : s.reads = q.reports.map .report ++ rest) :
    let value := Sysinfo.value q.text "guid"
    let raw := guid? (Utf8.encode (String.ofList value))
    (∀ bytes, raw = some bytes ↔
      ∃ digits, Marked value digits ∧ Paired digits ∧ Denotes digits bytes) ∧
    ('+' ∉ (value.drop 2).take 96 → ∀ bytes, raw = some bytes ↔
      ∃ digits, Marked value digits ∧ (∀ c ∈ digits, Hex.isDigit c = true) ∧
        Denotes digits bytes) ∧
    ∃ identity, (identify.run.run Script.device s).result = .ok identity ∧
      (∀ bytes, raw = some bytes → identity.serials = Serial.ofBytes bytes) ∧
      (raw = none → identity.serials = []) := by
  intro value raw
  have hresult := (identify_eq_ok_iff s hwrites q.identity).2 ⟨q, hvalid, rfl, rest, hreads⟩
  have hserials : q.identity.serials = (raw.map Serial.ofBytes).getD [] := rfl
  refine ⟨fun bytes => guid?_encode_eq_some_iff, fun hplus bytes => ?_, q.identity, hresult, ?_, ?_⟩
  · refine guid?_encode_eq_some_iff.trans (exists_congr fun digits => ?_)
    refine and_congr_right fun hmarked => ?_
    rw [paired_iff_of_notMem (hmarked.eq_take ▸ hplus)]
  · intro bytes hraw
    rw [hserials, hraw]
    rfl
  · intro hraw
    rw [hserials, hraw]
    rfl

/-- The value in a description of one line. -/
theorem Survey.value_ofText {told : List Char}
    (hascii : ∀ c ∈ "guid ".toList ++ told, 0 < c.toNat ∧ c.toNat < 0x80)
    (hlines : Text.lines ("guid ".toList ++ told) = ["guid ".toList ++ told])
    (hhead : told.head?.any Text.isBlank = false)
    (hlast : told.getLast?.any Text.isBlank = false) :
    Sysinfo.value (ofText ("guid ".toList ++ told)).text "guid" = told := by
  have hkey : IsKey "guid" := ⟨by decide, by decide⟩
  rw [text_ofText hascii]
  have hline : Tells "guid" told ("guid ".toList ++ told) := by
    refine ⟨0, [], [], ?_, nofun, nofun⟩
    rw [List.append_nil]
    rfl
  exact hkey.value_of_firstTells ⟨[], _, [], hlines, nofun, hline⟩ hhead hlast

/-- Digits alone, with one more character behind them. -/
theorem identify_serials_digits :
    let digits := (List.replicate 48 ['0', 'F']).flatten
    let q := Survey.ofText ("guid ".toList ++ '0' :: 'x' :: (digits ++ ['z']))
    ∃ identity, (identify.run.run Script.device { reads := q.reports.map .report }).result =
        .ok identity ∧
      identity.serials = Serial.ofBytes (List.replicate 48 0x0F) := by
  intro digits q
  have hvalue : Sysinfo.value q.text "guid" = '0' :: 'x' :: (digits ++ ['z']) :=
    Survey.value_ofText (List.all_iff_forall_prop.1 rfl) (by decide) rfl rfl
  obtain ⟨hraw, -, identity, hresult, hserials, -⟩ := identify_serials
    (Survey.valid_ofText (by decide) : q.Valid) { reads := q.reports.map .report } (fun _ => rfl)
    (List.append_nil _).symm
  have hpaired : Paired digits :=
    (paired_iff_of_notMem (by decide)).2 (List.all_iff_forall_prop.1 rfl)
  have hdenotes : Denotes digits (List.replicate 48 0x0F) := ⟨by decide, by decide +kernel⟩
  refine ⟨identity, hresult, hserials _ ((hraw _).2 ⟨digits, ⟨by decide, ['z'], hvalue⟩, ?_⟩)⟩
  exact ⟨hpaired, hdenotes⟩

/-- A value is taken that has plus signs in the place of digits. -/
theorem identify_serials_plus :
    let digits := (List.replicate 48 ['+', '1']).flatten
    let q := Survey.ofText ("guid ".toList ++ '0' :: 'x' :: digits)
    Sysinfo.value q.text "guid" = '0' :: 'x' :: digits ∧
      guid? (Utf8.encode (String.ofList ('0' :: 'x' :: digits))) = some (List.replicate 48 0x01) ∧
      '+' ∈ digits ∧ Hex.isDigit '+' = false ∧
      ∃ identity, (identify.run.run Script.device { reads := q.reports.map .report }).result =
          .ok identity ∧
        identity.serials = Serial.ofBytes (List.replicate 48 0x01) := by
  intro digits q
  have hvalue : Sysinfo.value q.text "guid" = '0' :: 'x' :: digits :=
    Survey.value_ofText (List.all_iff_forall_prop.1 rfl) (by decide) rfl rfl
  have hraw : guid? (Utf8.encode (String.ofList ('0' :: 'x' :: digits))) =
      some (List.replicate 48 0x01) := by
    rw [Utf8.encode_ascii (List.all_iff_forall_prop.1 rfl)]
    decide
  let s : Script := { reads := q.reports.map .report }
  have hresult := (identify_eq_ok_iff s (fun _ => rfl) q.identity).2
    ⟨q, Survey.valid_ofText (by decide), rfl, [], (List.append_nil _).symm⟩
  refine ⟨hvalue, hraw, by decide, by decide, q.identity, hresult, ?_⟩
  have hserials : q.identity.serials =
      ((guid? (Utf8.encode (String.ofList (Sysinfo.value q.text "guid")))).map
        Serial.ofBytes).getD [] := rfl
  rw [hserials, hvalue, hraw]
  rfl

end FileTransfer

end UniversalRemote
