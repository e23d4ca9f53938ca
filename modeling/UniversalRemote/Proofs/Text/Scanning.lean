import UniversalRemote.Text.Scan
/-!
# Rules of scans

What scans that are put together find follows from what their parts find. Repetitions are followed
step by step (`Repeats`), since how many of them there are is not known beforehand.
-/

namespace UniversalRemote.Scan

variable {α β : Type} {s : Scan α} {text rest : List Char} {a : α}

/-! ## Putting scans together -/

@[simp] theorem pure_apply (a : α) (text : List Char) : (pure a : Scan α) text = some (a, text) :=
  rfl

@[simp] theorem failure_apply (text : List Char) : (failure : Scan α) text = none :=
  rfl

@[simp] theorem bind_apply (s : Scan α) (next : α → Scan β) (text : List Char) :
    (s >>= next) text = (s text).bind fun found => next found.1 found.2 :=
  rfl

@[simp] theorem map_apply (f : α → β) (s : Scan α) (text : List Char) :
    (f <$> s) text = (s text).map fun found => (f found.1, found.2) := by
  show (s text).bind _ = _
  cases s text <;> rfl

@[simp] theorem seqRight_apply (s : Scan α) (t : Scan β) (text : List Char) :
    (s *> t) text = (s text).bind fun found => t found.2 :=
  rfl

@[simp] theorem seqLeft_apply (s : Scan α) (t : Scan β) (text : List Char) :
    (s <* t) text = (s text).bind fun found => (t found.2).map fun behind => (found.1, behind.2) := by
  show (s text).bind _ = _
  congr 1
  funext found
  show (t found.2).bind _ = _
  cases t found.2 <;> rfl

@[simp] theorem discard_apply (s : Scan α) (text : List Char) :
    discard s text = (s text).map fun found => ((), found.2) :=
  map_apply _ s text

@[simp] theorem orElse_apply (s t : Scan α) (text : List Char) :
    (s <|> t) text = (s text).or (t text) := by
  show (s text <|> t text) = _
  cases s text <;> rfl

@[simp] theorem optional_apply (s : Scan α) (text : List Char) : optional s text =
    some (((s text).map Prod.fst), ((s text).map Prod.snd).getD text) := by
  show ((some <$> s) <|> pure none : Scan (Option α)) text = _
  rw [orElse_apply, map_apply]
  cases s text <;> rfl

/-! ## Characters -/

@[simp] theorem satisfy_nil (p : Char → Bool) : satisfy p [] = none :=
  rfl

@[simp] theorem satisfy_cons (p : Char → Bool) (c : Char) (rest : List Char) :
    satisfy p (c :: rest) = if p c then some (c, rest) else none :=
  rfl

@[simp] theorem char_nil (c : Char) : char c [] = none :=
  rfl

@[simp] theorem char_cons (c d : Char) (rest : List Char) :
    char c (d :: rest) = if d = c then some ((), rest) else none := by
  simp [char, apply_ite]

@[simp] theorem word_nil (text : List Char) : word [] text = some ((), text) :=
  rfl

@[simp] theorem word_cons (c : Char) (w text : List Char) :
    word (c :: w) text = (char c text).bind fun found => word w found.2 :=
  rfl

theorem word_append (w rest : List Char) : word w (w ++ rest) = some ((), rest) := by
  induction w with
  | nil => rfl
  | cons c w ih => simp [ih]

theorem char_eq_none {c : Char} (h : text.head? ≠ some c) : char c text = none := by
  cases text with
  | nil => rfl
  | cons d rest => simpa using h

@[simp] theorem takeWhile_apply (p : Char → Bool) (text : List Char) :
    takeWhile p text = some (text.takeWhile p, text.dropWhile p) :=
  rfl

theorem takeWhile_eq_nil {p : Char → Bool} (h : text.head?.any p = false) :
    takeWhile p text = some ([], text) := by
  cases text with
  | nil => rfl
  | cons c text =>
    have hc : p c = false := h
    simp [hc]

theorem takeWhile_append {p : Char → Bool} {taken : List Char} (htaken : ∀ c ∈ taken, p c = true)
    (hrest : rest.head?.any p = false) : takeWhile p (taken ++ rest) = some (taken, rest) := by
  obtain ⟨htake, hdrop⟩ := Prod.mk.inj (Option.some.inj (takeWhile_eq_nil hrest))
  rw [takeWhile_apply, List.takeWhile_append_of_pos htaken, List.dropWhile_append_of_pos htaken,
    htake, hdrop, List.append_nil]

theorem takeWhile1_append {p : Char → Bool} {taken : List Char} (htaken : ∀ c ∈ taken, p c = true)
    (hne : taken ≠ []) (hrest : rest.head?.any p = false) :
    takeWhile1 p (taken ++ rest) = some (taken, rest) := by
  obtain ⟨c, taken, rfl⟩ := List.exists_cons_of_ne_nil hne
  rw [takeWhile1, bind_apply, takeWhile_append htaken hrest]
  rfl

theorem exactly_append {p : Char → Bool} {taken : List Char} {count : Nat}
    (hlength : taken.length = count) (h : ∀ c ∈ taken, p c = true) (rest : List Char) :
    exactly p count (taken ++ rest) = some (taken, rest) := by
  subst hlength
  induction taken with
  | nil => rfl
  | cons c taken ih =>
    obtain ⟨hc, htaken⟩ := List.forall_mem_cons.1 h
    simp [exactly, hc, ih htaken]

/-- Whether it takes all such characters or not, what follows the last of them is the same. -/
theorem dropWhile_of_exactly {p : Char → Bool} {taken : List Char} {count : Nat}
    (h : exactly p count text = some (taken, rest)) : rest.dropWhile p = text.dropWhile p := by
  induction count generalizing text taken with
  | zero =>
    obtain ⟨-, rfl⟩ := Prod.mk.inj (Option.some.inj h)
    rfl
  | succ count ih =>
    cases text with
    | nil => cases h
    | cons c text =>
      by_cases hc : p c = true
      · simp only [exactly, bind_apply, satisfy_cons, if_pos hc, Option.bind_some,
          Option.bind_eq_some_iff] at h
        obtain ⟨⟨more, behind⟩, hmore, hfound⟩ := h
        obtain ⟨-, rfl⟩ := Prod.mk.inj (Option.some.inj hfound)
        rw [ih hmore, List.dropWhile_cons_of_pos hc]
      · simp [exactly, hc] at h

/-! ## Repetitions -/

/-- A scan succeeds again and again, each time on a shorter text, and then fails. -/
inductive Repeats (s : Scan α) : List Char → List α → List Char → Prop
  | stop {text : List Char} (h : s text = none) : Repeats s text [] text
  | step {text rest behind : List Char} {a : α} {found : List α} (h : s text = some (a, rest))
      (hlt : rest.length < text.length) (more : Repeats s rest found behind) :
      Repeats s text (a :: found) behind

variable {found : List α}

/-- One more success, which takes something off the front. -/
theorem Repeats.cons {front behind : List Char} (h : s (front ++ rest) = some (a, rest))
    (hfront : front ≠ []) (more : Repeats s rest found behind) :
    Repeats s (front ++ rest) (a :: found) behind := by
  refine .step h ?_ more
  have := List.length_pos_iff.2 hfront
  rw [List.length_append]
  omega

theorem Repeats.repeated (h : Repeats s text found rest) {n : Nat} (hn : text.length ≤ n) :
    repeated s n text = (found, rest) := by
  induction h generalizing n with
  | stop h => cases n <;> simp [Scan.repeated, h]
  | step h hlt _ ih =>
    obtain ⟨n, rfl⟩ : ∃ m, n = m + 1 := ⟨n - 1, by omega⟩
    simp only [Scan.repeated, h]
    rw [ih (by omega)]

theorem Repeats.many (h : Repeats s text found rest) : many s text = some (found, rest) :=
  congrArg some (h.repeated (Nat.le_refl _))

theorem Repeats.separatedBy {separator : Scan Unit} {behind : List Char}
    (hfirst : s text = some (a, rest)) (hmore : Repeats (separator *> s) rest found behind) :
    separatedBy separator s text = some (a :: found, behind) := by
  rw [Scan.separatedBy, bind_apply, hfirst, Option.bind_some, bind_apply, hmore.many]
  rfl

end UniversalRemote.Scan
