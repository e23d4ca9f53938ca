import Mathlib.Logic.Function.Defs
import UniversalRemote.Infrared.Signal
import UniversalRemote.Proofs.Text.Digits
/-!
# The text of a signal read back

The text of a signal can be cut without knowing how wide its numbers are: behind the tag in front,
which is itself a digit, no tag is one. A reader that cuts it there, and refuses numbers that are
not written as a field has them, takes exactly the texts of signals (`learnText_determines`).
-/

namespace UniversalRemote.Signal

/-! ## The reader -/

/-- The number that the digits of a field spell, if they are written as those of a field are. -/
def number? (digits : List Char) : Option UInt32 :=
  let n := UInt32.ofNat (Numeral.ofDigits 16 digits)
  if Hex.padded 4 n.toNat = digits then some n else none

/-- The digits that begin a text, and the tags behind them, each with the digits that follow it. -/
def cutAtTags : List Char → List Char × List (Char × List Char)
  | [] => ([], [])
  | c :: rest =>
    let (digits, fields) := cutAtTags rest
    if Hex.isDigit c then (c :: digits, fields) else ([], (c, digits) :: fields)

/-- The numbers of fields that have two tags in turn. -/
def numbers? (tag other : Char) : List (Char × List Char) → Option (List UInt32)
  | [] => some []
  | (c, digits) :: rest =>
    if c = tag then do return (← number? digits) :: (← numbers? other tag rest) else none

def ofLearnChars? : List Char → Option Signal
  | 'F' :: rest => do
    let (digits, fields) := cutAtTags rest
    return { frequency := ← number? digits, pulses := ← numbers? 'P' 'S' fields }
  | _ => none

def ofLearnText? (text : String) : Option Signal :=
  ofLearnChars? text.toList

/-! ## Fields -/

def tagged (tag other : Char) : List UInt32 → List (Char × UInt32)
  | [] => []
  | n :: rest => (tag, n) :: tagged other tag rest

theorem pulseFields_eq (pulses : List UInt32) :
    pulseFields pulses = (tagged 'P' 'S' pulses).flatMap fun (tag, n) => field tag n := by
  fun_induction pulseFields pulses with
  | case1 => rfl
  | case2 mark => simp [tagged]
  | case3 mark space rest ih => simp [tagged, ih]

theorem mem_tagged {tag other : Char} {numbers : List UInt32} {entry : Char × UInt32}
    (h : entry ∈ tagged tag other numbers) : entry.1 = tag ∨ entry.1 = other := by
  induction numbers generalizing tag other with
  | nil => cases h
  | cons n rest ih =>
    rcases List.mem_cons.1 h with rfl | h
    · exact .inl rfl
    · exact (ih h).symm

theorem number?_eq_some_iff {digits : List Char} {n : UInt32} :
    number? digits = some n ↔ digits = Hex.padded 4 n.toNat := by
  unfold number?
  constructor
  · intro h
    by_cases hwritten : Hex.padded 4 (UInt32.ofNat (Numeral.ofDigits 16 digits)).toNat = digits
    · rw [if_pos hwritten, Option.some.injEq] at h
      rw [← h, hwritten]
    · rw [if_neg hwritten] at h
      cases h
  · rintro rfl
    rw [Hex.ofDigits_padded, UInt32.ofNat_toNat, if_pos rfl]

theorem numbers?_eq_some_iff {tag other : Char} {fields : List (Char × List Char)}
    {numbers : List UInt32} : numbers? tag other fields = some numbers ↔
      fields = (tagged tag other numbers).map fun (tag, n) => (tag, Hex.padded 4 n.toNat) := by
  induction fields generalizing tag other numbers with
  | nil => cases numbers <;> simp [numbers?, tagged]
  | cons field rest ih =>
    obtain ⟨c, digits⟩ := field
    by_cases htag : c = tag
    · rw [numbers?, if_pos htag, htag]
      constructor
      · intro h
        obtain ⟨n, hn, h⟩ := Option.bind_eq_some_iff.1 h
        obtain ⟨later, hlater, h⟩ := Option.bind_eq_some_iff.1 h
        obtain rfl := Option.some.inj h
        rw [tagged, List.map_cons, ← ih.1 hlater, number?_eq_some_iff.1 hn]
      · intro h
        cases numbers with
        | nil => cases h
        | cons n later =>
          obtain ⟨hdigits, hrest⟩ := List.cons.inj h
          rw [number?_eq_some_iff.2 (congrArg Prod.snd hdigits), ih.2 hrest]
          rfl
    · rw [numbers?, if_neg htag]
      cases numbers with
      | nil => simp [tagged]
      | cons n later => simp [tagged, htag]

/-! ## Cutting -/

section Cutting

variable {c : Char} {rest : List Char}

theorem cutAtTags_digit (hc : Hex.isDigit c = true) :
    cutAtTags (c :: rest) = (c :: (cutAtTags rest).1, (cutAtTags rest).2) :=
  if_pos hc

theorem cutAtTags_tag (hc : Hex.isDigit c = false) :
    cutAtTags (c :: rest) = ([], (c, (cutAtTags rest).1) :: (cutAtTags rest).2) :=
  if_neg (Bool.eq_false_iff.1 hc)

end Cutting

/-- What was cut is joined again. -/
theorem join_cutAtTags (text : List Char) :
    (cutAtTags text).1 ++ (cutAtTags text).2.flatMap (fun (tag, digits) => tag :: digits) = text := by
  induction text with
  | nil => rfl
  | cons c rest ih =>
    by_cases hc : Hex.isDigit c = true
    · rw [cutAtTags_digit hc]
      exact congrArg (c :: ·) ih
    · rw [cutAtTags_tag (Bool.eq_false_iff.2 hc)]
      exact congrArg (c :: ·) ih

theorem cutAtTags_append {digits : List Char} (hdigits : ∀ c ∈ digits, Hex.isDigit c = true)
    (rest : List Char) :
    cutAtTags (digits ++ rest) = (digits ++ (cutAtTags rest).1, (cutAtTags rest).2) := by
  induction digits with
  | nil => rfl
  | cons c digits ih =>
    obtain ⟨hc, hdigits⟩ := List.forall_mem_cons.1 hdigits
    rw [List.cons_append, cutAtTags_digit hc, ih hdigits]
    rfl

/-- Fields are cut as they were written, if no tag is a digit. -/
theorem cutAtTags_fields {fields : List (Char × UInt32)}
    (htags : ∀ field ∈ fields, Hex.isDigit field.1 = false) (n : UInt32) :
    cutAtTags (Hex.padded 4 n.toNat ++ fields.flatMap fun (tag, n) => field tag n) =
      (Hex.padded 4 n.toNat, fields.map fun (tag, n) => (tag, Hex.padded 4 n.toNat)) := by
  have hdigits (n : UInt32) : ∀ c ∈ Hex.padded 4 n.toNat, Hex.isDigit c = true :=
    fun _ => Hex.isDigit_of_mem_padded
  induction fields generalizing n with
  | nil => rw [cutAtTags_append (hdigits n)]; simp [cutAtTags]
  | cons entry rest ih =>
    obtain ⟨tag, m⟩ := entry
    obtain ⟨htag, hrest⟩ := List.forall_mem_cons.1 htags
    rw [cutAtTags_append (hdigits n), List.flatMap_cons]
    dsimp only
    rw [field, List.cons_append, cutAtTags_tag htag, ih hrest m, List.append_nil]
    rfl

/-! ## Texts -/

theorem learnChars_eq (s : Signal) : s.learnChars = 'F' :: (Hex.padded 4 s.frequency.toNat ++
    (tagged 'P' 'S' s.pulses).flatMap fun (tag, n) => field tag n) := by
  rw [learnChars, pulseFields_eq]
  rfl

theorem ofLearnChars?_learnChars (s : Signal) : ofLearnChars? s.learnChars = some s := by
  have htags : ∀ entry ∈ tagged 'P' 'S' s.pulses, Hex.isDigit entry.1 = false := by
    intro entry hentry
    rcases mem_tagged hentry with h | h
    · rw [h]; decide
    · rw [h]; decide
  have hfrequency : number? (Hex.padded 4 s.frequency.toNat) = some s.frequency :=
    number?_eq_some_iff.2 rfl
  have hpulses := numbers?_eq_some_iff.2 (Eq.refl
    ((tagged 'P' 'S' s.pulses).map fun (tag, n) => (tag, Hex.padded 4 n.toNat)))
  rw [learnChars_eq, ofLearnChars?, cutAtTags_fields htags]
  simp only [hfrequency, hpulses]
  rfl

theorem eq_learnChars_of_some {text : List Char} {s : Signal} (h : ofLearnChars? text = some s) :
    text = s.learnChars := by
  unfold ofLearnChars? at h
  split at h
  · rename_i rest
    obtain ⟨frequency, hfrequency, h⟩ := Option.bind_eq_some_iff.1 h
    obtain ⟨pulses, hpulses, h⟩ := Option.bind_eq_some_iff.1 h
    obtain rfl := Option.some.inj h
    have hjoin := join_cutAtTags rest
    rw [number?_eq_some_iff.1 hfrequency, numbers?_eq_some_iff.1 hpulses, List.flatMap_map] at hjoin
    rw [learnChars_eq, ← hjoin]
    rfl
  · cases h

/-- A text is read as a signal exactly if it is the text of that signal. So no two signals, of
whatever frequency and durations, have the same text. -/
theorem learnText_determines :
    (∀ text s, ofLearnText? text = some s ↔ text = learnText s) ∧
      Function.Injective learnText := by
  have hread : ∀ text s, ofLearnText? text = some s ↔ text = learnText s := by
    intro text s
    rw [ofLearnText?, learnText]
    constructor
    · intro h
      rw [← eq_learnChars_of_some h, String.ofList_toList]
    · rintro rfl
      rw [String.toList_ofList, ofLearnChars?_learnChars]
  refine ⟨hread, fun s t h => ?_⟩
  have hs := (hread _ s).2 rfl
  rw [h, (hread _ t).2 rfl] at hs
  exact (Option.some.inj hs).symm

/-- An odd number of durations, one of them with more digits than a field has to have. -/
example : ofLearnText? "F9470P0100S0200P7A120" = some ⟨38000, [0x100, 0x200, 0x7A120]⟩ := by
  cbv

end UniversalRemote.Signal
