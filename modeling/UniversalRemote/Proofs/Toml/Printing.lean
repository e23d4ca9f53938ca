import UniversalRemote.Proofs.Text.Digits
import UniversalRemote.Proofs.Toml.Quoting
/-!
# Quoted texts as they are written

The way that is picked to write a text is a spelling of it (`spelling_print`).
-/

namespace UniversalRemote.Toml.Quoted

/-! ## Texts between quotes -/

theorem escape_padded {c : Char} (h : needsEscape c = true) : Escape ('u' :: Hex.padded 4 c.toNat) c := by
  have hsmall : c.toNat < 16 ^ (3 + 1) := by
    simp [needsEscape, isPlain] at h
    omega
  exact .number (by decide) (Hex.length_padded hsmall) (fun _ hd => Hex.isDigit_of_mem_padded hd)
    (Hex.ofDigits_padded 4 c.toNat)

/-- What is written for a character that does not stand for itself means that character. -/
theorem escape_of_escaped? {several : Bool} {c : Char} {code : List Char}
    (h : escaped? several c = some code) : ∃ tail, code = '\\' :: tail ∧ Escape tail c := by
  have hletter {letter : Char} (hletter : (letter, c) ∈ letters) (hcode : code = ['\\', letter]) :
      ∃ tail, code = '\\' :: tail ∧ Escape tail c := ⟨[letter], hcode, .letter hletter⟩
  revert h
  fun_cases escaped? several c with
  | case1 hc | case2 _ hc | case4 _ _ hc | case5 _ _ _ hc | case6 _ _ _ _ hc | case7 _ _ _ _ _ hc =>
    subst hc
    rintro ⟨⟩
    exact hletter (by decide) rfl
  | case3 => exact nofun
  | case8 _ _ _ _ _ _ hneeds =>
    rintro ⟨⟩
    exact ⟨_, rfl, escape_padded hneeds⟩
  | case9 => exact nofun

/-- All other characters stand for themselves, but for quotes and for line ends in a single line. -/
theorem basicPart_of_escaped?_eq_none {several : Bool} {c : Char} (h : escaped? several c = none)
    (hquote : c ≠ '"') : BasicPart several [c] c := by
  revert h
  fun_cases escaped? several c with
  | case3 _ _ hc hseveral =>
    subst hc
    exact fun _ => .line hseveral
  | case9 _ _ hfeed _ _ hbackslash hneeds =>
    intro _
    simp [needsEscape, hfeed] at hneeds
    exact .self (by simp [isBasic, hneeds, hquote, hbackslash])
  | _ => exact nofun

/-- How many quotes may stand in a row. -/
def room (several : Bool) : Nat :=
  if several then 2 else 0

theorem body_escapeAll (several : Bool) (run : Nat) (text : List Char) :
    Body '"' (room several) (BasicPart several) run (escapeAll several run text) text := by
  induction text generalizing run with
  | nil => exact .nil run
  | cons c text ih =>
    by_cases hquote : c = '"'
    · subst hquote
      have hescape : BasicPart several ['\\', '"'] '"' := .escape (.letter (by decide))
      rw [escapeAll, if_pos rfl, ← room]
      by_cases hroom : run < room several
      · rw [if_pos hroom]
        exact .quote hroom (ih (run + 1))
      · rw [if_neg hroom]
        exact .part hescape (ih 0)
    · rw [escapeAll, if_neg hquote]
      cases hcode : escaped? several c with
      | none => exact .part (basicPart_of_escaped?_eq_none hcode hquote) (ih 0)
      | some code =>
        obtain ⟨tail, rfl, hescape⟩ := escape_of_escaped? hcode
        exact .part (.escape hescape) (ih 0)

/-! ## Texts without escapes -/

theorem le_longestRun (quote : Char) (run : Nat) (text : List Char) :
    run ≤ longestRun quote run text := by
  fun_induction longestRun quote run text with
  | case1 => exact Nat.le_refl _
  | case2 _ _ ih => omega
  | case3 => exact Nat.le_max_left _ _

theorem body_self {several : Bool} {run : Nat} {text : List Char}
    (hplain : ∀ c ∈ text, isPlain c = true ∨ several = true ∧ c = '\n')
    (hrun : longestRun '\'' run text ≤ room several) :
    Body '\'' (room several) (LiteralPart several) run text text := by
  induction text generalizing run with
  | nil => exact .nil run
  | cons c text ih =>
    obtain ⟨hc, htext⟩ := List.forall_mem_cons.1 hplain
    by_cases hquote : c = '\''
    · subst hquote
      rw [longestRun, if_pos rfl] at hrun
      exact .quote (Nat.le_trans (le_longestRun _ _ _) hrun) (ih htext hrun)
    · rw [longestRun, if_neg hquote, Nat.max_le] at hrun
      have hpart : LiteralPart several [c] c := by
        rcases hc with hc | ⟨hseveral, rfl⟩
        · exact .self (by simp [isLiteral, hc, hquote])
        · exact .line hseveral
      exact .part hpart (ih htext hrun.2)

/-! ## The way that is picked -/

variable {text : List Char}

theorem isPlain_of_not_coded (h : (!text.any needsEscape) = true) :
    ∀ c ∈ text, isPlain c = true ∨ c = '\n' := by
  intro c hc
  have := List.any_eq_false.1 (Bool.not_eq_true' _ ▸ h) c hc
  simpa [needsEscape, imp_iff_not_or] using this

/-- The line end that a text of several lines begins with, or none. -/
theorem start_of_body {quote : Char} {Part : List Char → Char → Prop} {body : List Char}
    (h : Body quote 2 Part 0 body text) (d : Apart quote Part) :
    Start body (if text.contains '\n' then ['\n'] else []) := by
  by_cases hline : '\n' ∈ text
  · exact .inl (if_pos (List.contains_iff_mem.2 hline))
  · refine .inr ⟨if_neg fun hcontains => hline (List.contains_iff_mem.1 hcontains), ?_⟩
    exact fun hhead => hline (h.mem_of_head? d hhead)

/-- A text is written in a way that means it. -/
theorem spelling_print (text : List Char) : Spelling text (print text) := by
  have hbasic : Spelling text (enclose ['"'] false text (escapeAll false 0 text)) :=
    .basic (body_escapeAll false 0 text)
  have hseveral : Spelling text (enclose ['"', '"', '"'] true text (escapeAll true 0 text)) :=
    have hbody := body_escapeAll true 0 text
    .severalBasic (start_of_body hbody (apart_basicPart true)) hbody
  fun_cases print text with
  | case1 => exact hbasic
  | case2 coded backslash quotes apostrophes lines _ h =>
    simp only [Bool.and_eq_true] at h
    obtain ⟨⟨hcoded, hnone⟩, hlines⟩ := h
    have hplain : ∀ c ∈ text, isPlain c = true ∨ false = true ∧ c = '\n' := by
      intro c hc
      refine (isPlain_of_not_coded hcoded c hc).imp_right ?_
      rintro rfl
      simp [lines, hc] at hlines
    exact .literal (body_self hplain (Nat.le_of_eq (of_decide_eq_true hnone)))
  | case3 => exact hseveral
  | case4 coded backslash quotes apostrophes lines _ _ _ h =>
    simp only [Bool.and_eq_true] at h
    have hplain : ∀ c ∈ text, isPlain c = true ∨ true = true ∧ c = '\n' :=
      fun c hc => (isPlain_of_not_coded h.1 c hc).imp_right fun hline => ⟨rfl, hline⟩
    have hbody := body_self hplain (of_decide_eq_true h.2)
    exact .severalLiteral (start_of_body hbody (apart_literalPart true)) hbody
  | case5 => exact hseveral
  | case6 => exact hbasic

end UniversalRemote.Toml.Quoted
