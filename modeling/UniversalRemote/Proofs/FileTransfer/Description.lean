import Mathlib.Data.List.DropRight
import Mathlib.Data.List.TakeDrop
import UniversalRemote.FileTransfer.Sysinfo
import UniversalRemote.Proofs.Text.Digits
/-!
# Properties in a description

A property is told by the first line that names it, whatever the lines before and behind: the key,
with colons or without, a space and a value with blanks around it (`value_of_firstTells`). A number
is read off the leading digits of a value, whatever characters follow (`digits_encode`).
-/

namespace UniversalRemote

/-! ## Blanks and spaces -/

namespace Text

section Ends

variable {p : α → Bool} {l back : List α}

theorem dropEndWhile_append (hback : ∀ a ∈ back, p a = true) :
    dropEndWhile p (l ++ back) = dropEndWhile p l := by
  have hreverse : ∀ a ∈ back.reverse, p a = true := fun a ha => hback a (List.mem_reverse.1 ha)
  rw [dropEndWhile, List.reverse_append, List.dropWhile_append_of_pos hreverse]
  rfl

theorem dropEndWhile_eq_self (h : l.getLast?.any p = false) : dropEndWhile p l = l := by
  refine List.rdropWhile_eq_self_iff.2 fun hl => ?_
  rw [List.getLast?_eq_some_getLast hl] at h
  exact Bool.eq_false_iff.1 h

/-- A text is what is kept of it with elements behind it of which the test holds. -/
theorem exists_dropEndWhile (p : α → Bool) (l : List α) :
    ∃ dropped, l = dropEndWhile p l ++ dropped ∧ ∀ a ∈ dropped, p a = true :=
  ⟨l.rtakeWhile p, List.rdropWhile_append_rtakeWhile.symm, fun _ => List.mem_rtakeWhile_imp⟩

end Ends

/-- Blanks around a text are dropped, if it has none at its ends. -/
theorem trim_eq {front text back : List Char} (hfront : ∀ c ∈ front, isBlank c = true)
    (hback : ∀ c ∈ back, isBlank c = true) (hhead : text.head?.any isBlank = false)
    (hlast : text.getLast?.any isBlank = false) : trim (front ++ (text ++ back)) = text := by
  rw [trim, List.dropWhile_append_of_pos hfront]
  cases text with
  | nil => rw [List.nil_append, List.dropWhile_eq_nil_iff.2 hback]; rfl
  | cons c text =>
    have hc : ¬ isBlank c = true := Bool.eq_false_iff.1 hhead
    rw [List.cons_append, List.dropWhile_cons_of_neg hc, ← List.cons_append,
      dropEndWhile_append hback, dropEndWhile_eq_self hlast]

theorem splitAtSpace_eq_some_iff {text name value : List Char} :
    splitAtSpace text = some (name, value) ↔ text = name ++ ' ' :: value ∧ ' ' ∉ name := by
  rw [splitAtSpace, List.span_eq_takeWhile_dropWhile]
  constructor
  · intro h
    have hjoin := List.takeWhile_append_dropWhile (p := (· ≠ ' ')) (l := text)
    have hhead := List.head?_dropWhile_not (· ≠ ' ') text
    cases hdrop : text.dropWhile (· ≠ ' ') with
    | nil => rw [hdrop] at h; cases h
    | cons c rest =>
      rw [hdrop] at h hjoin hhead
      obtain ⟨rfl, rfl⟩ := Prod.mk.inj (Option.some.inj h)
      obtain rfl : c = ' ' := by simpa using hhead
      exact ⟨hjoin.symm, fun hmem => by simpa using List.mem_takeWhile_imp hmem⟩
  · rintro ⟨rfl, hname⟩
    have hpos : ∀ c ∈ name, decide (c ≠ ' ') = true := by
      intro c hc
      exact decide_eq_true fun heq => hname (heq ▸ hc)
    rw [List.takeWhile_append_of_pos hpos, List.dropWhile_append_of_pos hpos]
    simp

end Text

namespace Sysinfo

/-! ## Lines -/

/-- A key has no space in it and no colon at its end. -/
structure IsKey (key : String) : Prop where
  space : ' ' ∉ key.toList
  colon : ':' ∉ key.toList.getLast?

/-- The value that a line has for a key. -/
def property? (key : String) (line : List Char) : Option (List Char) := do
  let (name, value) ← Text.splitAtSpace line
  if Text.dropEndWhile (· == ':') name = key.toList then some (Text.trim value) else none

/-- A line that names a property: colons may follow its key, and a space has to. -/
def Names (key : String) (line : List Char) : Prop :=
  ∃ colons rest, line = key.toList ++ List.replicate colons ':' ++ ' ' :: rest

/-- A line that names a property, and has a value for it with blanks around. -/
def Tells (key : String) (value line : List Char) : Prop :=
  ∃ colons front back,
    line = key.toList ++ List.replicate colons ':' ++ ' ' :: (front ++ (value ++ back)) ∧
      (∀ c ∈ front, Text.isBlank c = true) ∧ ∀ c ∈ back, Text.isBlank c = true

/-- The first line of a text that names a property has a value for it. -/
def FirstTells (key : String) (value text : List Char) : Prop :=
  ∃ before line after, Text.lines text = before ++ line :: after ∧
    (∀ other ∈ before, ¬ Names key other) ∧ Tells key value line

theorem value_eq (text : List Char) (key : String) :
    value text key = ((Text.lines text).findSome? (property? key)).getD [] :=
  rfl

section Key

variable {key : String}

theorem IsKey.dropEndWhile_eq_iff (h : IsKey key) {name : List Char} :
    Text.dropEndWhile (· == ':') name = key.toList ↔
      ∃ colons, name = key.toList ++ List.replicate colons ':' := by
  constructor
  · intro hname
    obtain ⟨dropped, hdropped, hcolons⟩ := Text.exists_dropEndWhile (· == ':') name
    rw [hname] at hdropped
    refine ⟨dropped.length, ?_⟩
    rw [← List.eq_replicate_of_mem fun c hc => beq_iff_eq.1 (hcolons c hc)]
    exact hdropped
  · rintro ⟨colons, rfl⟩
    have hcolons : ∀ c ∈ List.replicate colons ':', (c == ':') = true := by
      intro c hc
      rw [List.eq_of_mem_replicate hc]
      rfl
    rw [Text.dropEndWhile_append hcolons]
    refine Text.dropEndWhile_eq_self ((Option.any_eq_false _ _).2 fun c hc => ?_)
    exact beq_eq_false_iff_ne.2 fun heq => h.colon (heq ▸ hc)

theorem IsKey.property?_eq_some_iff (h : IsKey key) {line value : List Char} :
    property? key line = some value ↔ ∃ colons rest,
      line = key.toList ++ List.replicate colons ':' ++ ' ' :: rest ∧ Text.trim rest = value := by
  unfold property?
  constructor
  · intro hsome
    obtain ⟨⟨name, rest⟩, hsplit, hsome⟩ := Option.bind_eq_some_iff.1 hsome
    obtain ⟨hname, htrim⟩ := Option.ite_none_right_eq_some.1 hsome
    obtain ⟨colons, rfl⟩ := h.dropEndWhile_eq_iff.1 hname
    exact ⟨colons, rest, (Text.splitAtSpace_eq_some_iff.1 hsplit).1, Option.some.inj htrim⟩
  · rintro ⟨colons, rest, rfl, rfl⟩
    have hspace : ' ' ∉ key.toList ++ List.replicate colons ':' := by
      rw [List.mem_append, not_or]
      exact ⟨h.space, fun hmem => by cases List.eq_of_mem_replicate hmem⟩
    refine Option.bind_eq_some_iff.2 ⟨_, Text.splitAtSpace_eq_some_iff.2 ⟨rfl, hspace⟩, ?_⟩
    exact if_pos (h.dropEndWhile_eq_iff.2 ⟨colons, rfl⟩)

theorem IsKey.property?_eq_none_iff (h : IsKey key) {line : List Char} :
    property? key line = none ↔ ¬ Names key line := by
  rw [Option.eq_none_iff_forall_ne_some]
  constructor
  · rintro hnone ⟨colons, rest, hline⟩
    exact hnone _ (h.property?_eq_some_iff.2 ⟨colons, rest, hline, rfl⟩)
  · intro hunnamed value hsome
    obtain ⟨colons, rest, hline, -⟩ := h.property?_eq_some_iff.1 hsome
    exact hunnamed ⟨colons, rest, hline⟩

/-- The value of a property is the one in the first line that names it. -/
theorem IsKey.value_of_firstTells (h : IsKey key) {told text : List Char}
    (hfirst : FirstTells key told text) (hhead : told.head?.any Text.isBlank = false)
    (hlast : told.getLast?.any Text.isBlank = false) : value text key = told := by
  obtain ⟨before, line, after, hlines, hbefore, colons, front, back, hline, hfront, hback⟩ := hfirst
  have hnone : before.findSome? (property? key) = none :=
    List.findSome?_eq_none_iff.2 fun other hother =>
      h.property?_eq_none_iff.2 (hbefore other hother)
  have hsome : property? key line = some told :=
    h.property?_eq_some_iff.2 ⟨colons, _, hline, Text.trim_eq hfront hback hhead hlast⟩
  rw [value_eq, hlines, List.findSome?_append, hnone, Option.none_or, List.findSome?_cons, hsome]
  rfl

end Key

/-! ## Numbers -/

section Numbers

variable (base : Nat)

theorem digit?_ofNat {c : Char} (h : c.toNat < 0x80) :
    digit? base (UInt8.ofNat c.toNat) = (Hex.value? c).filter (· < base) := by
  have hnat : (UInt8.ofNat c.toNat).toNat = c.toNat := by
    rw [UInt8.toNat_ofNat']
    omega
  rw [digit?, hnat, Char.ofNat_toNat]

theorem digit?_high {b : UInt8} (h : 0x80 ≤ b.toNat) : digit? base b = none := by
  cases hvalue : Hex.value? (Char.ofNat b.toNat) with
  | none => rw [digit?, hvalue]; rfl
  | some d =>
    have hlt := (Hex.value?_eq_some hvalue).2
    rw [Utf8.toNat_ofNat_byte] at hlt
    omega

/-- The bytes that are digits of an encoded text are its leading digits. -/
theorem takeWhile_digit?_encode (cs : List Char) :
    ((Utf8.encode (String.ofList cs)).map (digit? base)).takeWhile (·.isSome) =
      (cs.takeWhile fun c => (Hex.value? c).any (· < base)).map Hex.value? := by
  induction cs with
  | nil => rw [Utf8.encode_ofList]; rfl
  | cons c cs ih =>
    rw [Utf8.encode_ofList] at ih ⊢
    rw [List.flatMap_cons]
    by_cases hc : c.toNat < 0x80
    · rw [Utf8.utf8EncodeChar_ascii hc, List.singleton_append, List.map_cons, digit?_ofNat base hc]
      cases hvalue : Hex.value? c with
      | none => simp [hvalue]
      | some d =>
        by_cases hd : d < base
        · simp [hvalue, hd, ih]
        · simp [hvalue, hd]
    · obtain ⟨b, rest, hbytes, hb⟩ := Utf8.exists_utf8EncodeChar (Nat.le_of_not_lt hc)
      have hvalue : Hex.value? c = none := by
        cases hvalue : Hex.value? c with
        | none => rfl
        | some d => exact absurd (Hex.value?_eq_some hvalue).2 hc
      simp [hbytes, digit?_high base hb, hvalue]

theorem digits_encode (cs : List Char) : digits base (Utf8.encode (String.ofList cs)) =
    Numeral.ofDigits base (cs.takeWhile fun c => (Hex.value? c).any (· < base)) := by
  rw [digits, takeWhile_digit?_encode, List.foldl_map]
  rfl

end Numbers

end Sysinfo

end UniversalRemote
