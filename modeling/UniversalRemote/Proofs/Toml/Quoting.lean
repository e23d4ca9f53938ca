import UniversalRemote.Proofs.Text.Scanning
import UniversalRemote.Proofs.Toml.Grammar
/-!
# Quoted texts read back

Each spelling of a text is read back as that text (`scan_spelling`).
-/

namespace UniversalRemote.Toml

open Scan

theorem newline_eq_none {text : List Char} (hfeed : text.head? ≠ some '\n')
    (hreturn : text.head? ≠ some '\r') : newline text = none := by
  simp [newline, char_eq_none hfeed, char_eq_none hreturn]

namespace Quoted

/-! ## Characters behind a backslash -/

theorem escape_letter {letter c : Char} (h : (letter, c) ∈ letters) (rest : List Char) :
    escape ('\\' :: letter :: rest) = some (c, rest) := by
  have hall : ∀ pair ∈ letters, ∀ rest, escape ('\\' :: pair.1 :: rest) = some (pair.2, rest) := by
    intro pair hpair
    simp only [letters, List.mem_cons, List.not_mem_nil, or_false] at hpair
    rcases hpair with rfl | rfl | rfl | rfl | rfl | rfl | rfl <;> exact fun _ => rfl
  exact hall _ h rest

theorem scalar_digits {digits : List Char} (hdigits : ∀ d ∈ digits, (Hex.value? d).isSome = true)
    {c : Char} (hvalue : Numeral.ofDigits 16 digits = c.toNat) (rest : List Char) :
    scalar digits.length (digits ++ rest) = some (c, rest) := by
  have hvalid : c.toNat.isValidChar := c.valid
  rw [scalar, bind_apply, exactly_append rfl hdigits]
  simp [hvalue, hvalid]

theorem Escape.escape {code : List Char} {c : Char} (h : Escape code c) (rest : List Char) :
    escape ('\\' :: (code ++ rest)) = some (c, rest) := by
  cases h with
  | letter h => exact escape_letter h rest
  | number hmark hwidth hdigits hvalue =>
    simp only [List.mem_cons, List.not_mem_nil, or_false, Prod.mk.injEq] at hmark
    rcases hmark with ⟨rfl, rfl⟩ | ⟨rfl, rfl⟩
    all_goals
      rw [List.cons_append]
      have hscalar := scalar_digits hdigits hvalue rest
      rw [hwidth] at hscalar
      exact hscalar

/-! ## Parts of a text -/

/-- No part of a text begins with its quote or with a return, and only a line end with a line end. -/
structure Apart (quote : Char) (Part : List Char → Char → Prop) : Prop where
  within : quote ≠ '\r' ∧ quote ≠ '\n'
  part : ∀ {front : List Char} {c : Char}, Part front c → ∃ first later, front = first :: later ∧
    first ≠ quote ∧ first ≠ '\r' ∧ (first = '\n' → c = '\n')

theorem apart_basicPart (several : Bool) : Apart '"' (BasicPart several) := by
  refine ⟨by decide, fun {front c} h => ?_⟩
  cases h with
  | self h =>
    refine ⟨c, [], rfl, ?_, ?_, id⟩
    all_goals
      rintro rfl
      exact absurd h (by decide)
  | line => exact ⟨_, [], rfl, by decide⟩
  | @escape code h => exact ⟨_, code, rfl, by decide, by decide, fun hline => absurd hline (by decide)⟩

theorem apart_literalPart (several : Bool) : Apart '\'' (LiteralPart several) := by
  refine ⟨by decide, fun {front c} h => ?_⟩
  cases h with
  | self h =>
    refine ⟨c, [], rfl, ?_, ?_, id⟩
    all_goals
      rintro rfl
      exact absurd h (by decide)
  | line => exact ⟨_, [], rfl, by decide⟩

section Body

variable {quote : Char} {limit run : Nat} {Part : List Char → Char → Prop} {body text : List Char}

theorem Body.head?_ne_quote (h : Body quote 0 Part run body text) (d : Apart quote Part) :
    body.head? ≠ some quote := by
  cases h with
  | nil => exact nofun
  | quote hrun => exact absurd hrun (Nat.not_lt_zero _)
  | part hpart =>
    obtain ⟨first, later, rfl, hfirst, -⟩ := d.part hpart
    exact fun hhead => hfirst (Option.some.inj hhead)

theorem Body.mem_of_head? (h : Body quote limit Part run body text) (d : Apart quote Part)
    (hhead : body.head? = some '\n') : '\n' ∈ text := by
  cases h with
  | nil => cases hhead
  | quote => exact absurd (Option.some.inj hhead) d.within.2
  | part hpart =>
    obtain ⟨first, later, rfl, -, -, hline⟩ := d.part hpart
    rw [hline (Option.some.inj hhead)]
    exact List.mem_cons_self

/-- A body that begins with no line end is not taken for one with what is behind it. -/
theorem Body.newline_eq_none (h : Body quote limit Part run body text) (d : Apart quote Part)
    (hhead : body.head? ≠ some '\n') (tail : List Char) : newline (body ++ quote :: tail) = none := by
  cases h with
  | nil =>
    exact Toml.newline_eq_none (fun h => d.within.2 (Option.some.inj h))
      fun h => d.within.1 (Option.some.inj h)
  | quote =>
    exact Toml.newline_eq_none (fun h => d.within.2 (Option.some.inj h))
      fun h => d.within.1 (Option.some.inj h)
  | part hpart =>
    obtain ⟨first, later, rfl, -, hreturn, -⟩ := d.part hpart
    exact Toml.newline_eq_none hhead fun h => hreturn (Option.some.inj h)

end Body

/-! ## Texts on a single line -/

def basicChar : Scan Char :=
  satisfy isBasic <|> escape

theorem BasicPart.basicChar {front : List Char} {c : Char} (h : BasicPart false front c)
    (rest : List Char) : basicChar (front ++ rest) = some (c, rest) := by
  cases h with
  | self h => simp [Quoted.basicChar, h]
  | line h => cases h
  | escape h =>
    rw [Quoted.basicChar, orElse_apply, List.cons_append, h.escape]
    rfl

theorem Body.repeats {run : Nat} {body text : List Char}
    (h : Body '"' 0 (BasicPart false) run body text) (rest : List Char) :
    Repeats Quoted.basicChar (body ++ '"' :: rest) text ('"' :: rest) := by
  induction h with
  | nil => exact .stop rfl
  | quote hrun => exact absurd hrun (Nat.not_lt_zero _)
  | part hpart _ ih =>
    obtain ⟨first, later, hfront, -⟩ := (apart_basicPart false).part hpart
    rw [List.append_assoc]
    exact .cons (hpart.basicChar _) (by simp [hfront]) ih

theorem basic_body {body text : List Char} (h : Body '"' 0 (BasicPart false) 0 body text)
    (rest : List Char) : basic ('"' :: (body ++ '"' :: rest)) = some (text, rest) := by
  have hmany := (h.repeats rest).many
  rw [Quoted.basicChar] at hmany
  simp [basic, hmany]

theorem Body.eq_self {run : Nat} {body text : List Char}
    (h : Body '\'' 0 (LiteralPart false) run body text) :
    body = text ∧ ∀ c ∈ text, isLiteral c = true := by
  induction h with
  | nil => exact ⟨rfl, nofun⟩
  | quote hrun => exact absurd hrun (Nat.not_lt_zero _)
  | part hpart _ ih =>
    obtain ⟨rfl, hall⟩ := ih
    cases hpart with
    | self hc => exact ⟨rfl, List.forall_mem_cons.2 ⟨hc, hall⟩⟩
    | line h => cases h

theorem literal_body {body text : List Char} (h : Body '\'' 0 (LiteralPart false) 0 body text)
    (rest : List Char) : literal ('\'' :: (body ++ '\'' :: rest)) = some (text, rest) := by
  obtain ⟨rfl, hall⟩ := h.eq_self
  have hstop : ('\'' :: rest).head?.any isLiteral = false := rfl
  simp [literal, -takeWhile_apply, takeWhile_append hall hstop]

/-! ## Texts of several lines -/

/-- What a text of several lines consists of in front of its end. -/
def piece (quote : Char) (part : Scan (List Char)) : Scan (List Char) :=
  part <|> lineEnd <|> looseQuotes quote

/-- A quote begins no part of a text and no line end. -/
structure Delimits (quote : Char) (part : Scan (List Char)) : Prop where
  part : ∀ tail, part (quote :: tail) = none
  newline : ∀ tail, newline (quote :: tail) = none

/-- What stands in front of a rest spells a text: pieces of it up to at most two quotes at its end,
and these behind the three that end it. -/
def Spells (quote : Char) (part : Scan (List Char)) (rest input text : List Char) : Prop :=
  ∃ pieces count, count ≤ 2 ∧
    Repeats (piece quote part) input pieces (List.replicate (count + 3) quote ++ rest) ∧
    text = pieces.flatten ++ List.replicate count quote

section Several

variable {quote : Char} {part : Scan (List Char)} {rest tail text input taken : List Char}

/-- A run of quotes ends where something else follows. -/
theorem takeWhile_replicate (htail : tail.head? ≠ some quote) (count : Nat) :
    takeWhile (· == quote) (List.replicate count quote ++ tail) =
      some (List.replicate count quote, tail) := by
  have hstop : tail.head?.any (· == quote) = false := by
    cases tail with
    | nil => rfl
    | cons c tail => simpa using htail
  exact takeWhile_append (fun _ hc => beq_iff_eq.2 (List.eq_of_mem_replicate hc)) hstop

theorem replicate_append_cons (quote : Char) (count : Nat) (tail : List Char) :
    List.replicate count quote ++ quote :: tail = List.replicate (count + 1) quote ++ tail := by
  rw [List.replicate_succ', List.append_assoc]
  rfl

theorem looseQuotes_append (htail : tail.head? ≠ some quote) (count : Nat) :
    looseQuotes quote (List.replicate (count + 1) quote ++ tail) =
      if count + 1 ≤ 2 then some (List.replicate (count + 1) quote, tail) else none := by
  have hrun : takeWhile1 (· == quote) (List.replicate (count + 1) quote ++ tail) =
      some (List.replicate (count + 1) quote, tail) := by
    rw [takeWhile1, bind_apply, takeWhile_replicate htail]
    rfl
  rw [looseQuotes, bind_apply, hrun, Option.bind_some]
  simp only [List.length_replicate]
  split <;> rfl

theorem closing_append (hrest : rest.head? ≠ some quote) {count : Nat} (hcount : count ≤ 2) :
    closing quote (List.replicate (count + 3) quote ++ rest) =
      some (List.replicate count quote, rest) := by
  rw [closing, bind_apply, takeWhile_replicate hrest, Option.bind_some]
  simp [hcount]

theorem Delimits.piece_quotes (d : Delimits quote part) (htail : tail.head? ≠ some quote)
    (count : Nat) : piece quote part (List.replicate (count + 1) quote ++ tail) =
      if count + 1 ≤ 2 then some (List.replicate (count + 1) quote, tail) else none := by
  rw [piece, orElse_apply, orElse_apply, looseQuotes_append htail]
  rw [List.replicate_succ, List.cons_append, d.part, lineEnd, bind_apply, d.newline]
  rfl

theorem Delimits.close (d : Delimits quote part) (hrest : rest.head? ≠ some quote) {count : Nat}
    (hcount : count ≤ 2) :
    Spells quote part rest (List.replicate (count + 3) quote ++ rest)
      (List.replicate count quote) :=
  ⟨[], count, hcount, .stop ((d.piece_quotes hrest (count + 2)).trans (if_neg (by omega))), rfl⟩

theorem Spells.cons {front : List Char} (h : piece quote part (front ++ tail) = some (taken, tail))
    (hfront : front ≠ []) (more : Spells quote part rest tail text) :
    Spells quote part rest (front ++ tail) (taken ++ text) := by
  obtain ⟨pieces, count, hcount, hrepeats, rfl⟩ := more
  exact ⟨taken :: pieces, count, hcount, .cons h hfront hrepeats, by simp⟩

/-- One or two quotes in front of something else belong to the text. -/
theorem Delimits.loose (d : Delimits quote part) (htail : tail.head? ≠ some quote) {count : Nat}
    (hcount : count ≤ 2) (more : Spells quote part rest tail text) :
    Spells quote part rest (List.replicate count quote ++ tail)
      (List.replicate count quote ++ text) := by
  cases count with
  | zero => exact more
  | succ count =>
    exact .cons ((d.piece_quotes htail count).trans (if_pos hcount)) (by simp) more

/-- A text of several lines is read as what is spelled behind its first three quotes, or behind a
line end that follows them. -/
theorem Spells.multiline (h : Spells quote part rest input text) (hrest : rest.head? ≠ some quote)
    {start : List Char} (hstart : start = ['\n'] ∨ start = [] ∧ newline input = none) :
    multiline quote part ([quote, quote, quote] ++ (start ++ input)) = some (text, rest) := by
  obtain ⟨pieces, count, hcount, hrepeats, rfl⟩ := h
  have hskip : (discard (optional newline)) (start ++ input) = some ((), input) := by
    rcases hstart with rfl | ⟨rfl, hnone⟩
    · simp [newline]
    · simp [hnone]
  have hmany := hrepeats.many
  rw [piece] at hmany
  rw [Quoted.multiline, bind_apply, word_append, Option.bind_some, bind_apply, hskip,
    Option.bind_some, bind_apply, hmany, Option.bind_some, bind_apply,
    closing_append hrest hcount]
  rfl

end Several

/-- The parts of a text are pieces of it. -/
def Splits (quote : Char) (part : Scan (List Char)) (Part : List Char → Char → Prop) : Prop :=
  ∀ {front : List Char} {c : Char}, Part front c → ∀ rest,
    piece quote part (front ++ rest) = some ([c], rest)

/-- Quotes that were met already, but not yet read, are read with what follows them. -/
theorem Body.spells {quote : Char} {part : Scan (List Char)} {Part : List Char → Char → Prop}
    (d : Delimits quote part) (apart : Apart quote Part) (hsplits : Splits quote part Part)
    {rest : List Char} (hrest : rest.head? ≠ some quote) {run : Nat} {body text : List Char}
    (h : Body quote 2 Part run body text) (hrun : run ≤ 2) :
    Spells quote part rest (List.replicate run quote ++ (body ++ (List.replicate 3 quote ++ rest)))
      (List.replicate run quote ++ text) := by
  induction h with
  | nil run =>
    rw [List.nil_append, ← List.append_assoc, List.replicate_append_replicate, List.append_nil]
    exact d.close hrest hrun
  | quote hroom _ ih =>
    rw [List.cons_append, replicate_append_cons, replicate_append_cons]
    exact ih hroom
  | part hpart _ ih =>
    obtain ⟨first, later, rfl, hfirst, -⟩ := apart.part hpart
    rw [List.append_assoc]
    exact d.loose (by simpa using hfirst) hrun
      (.cons (hsplits hpart _) (List.cons_ne_nil _ _) (ih (Nat.zero_le 2)))

def basicPart : Scan (List Char) :=
  (fun c => [c]) <$> satisfy isBasic <|> joint <|> (fun c => [c]) <$> escape

theorem delimits_basicPart : Delimits '"' basicPart :=
  ⟨fun _ => rfl, fun _ => rfl⟩

/-- No code ends its line, so that it is not taken for the joint of two lines. -/
theorem Escape.joint_eq_none {code : List Char} {c : Char} (h : Escape code c) (rest : List Char) :
    joint ('\\' :: (code ++ rest)) = none := by
  cases h with
  | letter h =>
    simp only [letters, List.mem_cons, List.not_mem_nil, or_false, Prod.mk.injEq] at h
    rcases h with ⟨rfl, -⟩ | ⟨rfl, -⟩ | ⟨rfl, -⟩ | ⟨rfl, -⟩ | ⟨rfl, -⟩ | ⟨rfl, -⟩ | ⟨rfl, -⟩ <;> rfl
  | number hmark =>
    simp only [List.mem_cons, List.not_mem_nil, or_false, Prod.mk.injEq] at hmark
    rcases hmark with ⟨rfl, -⟩ | ⟨rfl, -⟩ <;> rfl

theorem splits_basicPart : Splits '"' basicPart (BasicPart true) := by
  intro front c h rest
  cases h with
  | self h => simp [piece, basicPart, h]
  | line => rfl
  | escape h =>
    rw [piece, orElse_apply, basicPart, orElse_apply, orElse_apply, List.cons_append,
      h.joint_eq_none, map_apply, map_apply, h.escape]
    rfl

def literalPart : Scan (List Char) :=
  (fun c => [c]) <$> satisfy isLiteral

theorem delimits_literalPart : Delimits '\'' literalPart :=
  ⟨fun _ => rfl, fun _ => rfl⟩

theorem splits_literalPart : Splits '\'' literalPart (LiteralPart true) := by
  intro front c h rest
  cases h with
  | self h => simp [piece, literalPart, h]
  | line => rfl

/-! ## All ways to write a text -/

variable {text rest spelled : List Char}

/-- A text on a single line does not begin with three quotes. -/
theorem Body.word_eq_none {quote : Char} {Part : List Char → Char → Prop} {body : List Char}
    (h : Body quote 0 Part 0 body text) (d : Apart quote Part) (hrest : rest.head? ≠ some quote) :
    word [quote, quote, quote] (quote :: (body ++ quote :: rest)) = none := by
  have hhead := h.head?_ne_quote d
  cases body with
  | nil => simp [char_eq_none hrest]
  | cons c body =>
    have hc : c ≠ quote := fun heq => hhead (congrArg some heq)
    simp [hc]

theorem Body.multiline {quote : Char} {part : Scan (List Char)} {Part : List Char → Char → Prop}
    (d : Delimits quote part) (apart : Apart quote Part) (hsplits : Splits quote part Part)
    {start body : List Char} (hstart : Start body start) (h : Body quote 2 Part 0 body text)
    (hrest : rest.head? ≠ some quote) :
    multiline quote part
      ([quote, quote, quote] ++ start ++ body ++ [quote, quote, quote] ++ rest) =
      some (text, rest) := by
  have hspells := h.spells d apart hsplits hrest (Nat.zero_le 2)
  have hopening : start = ['\n'] ∨
      start = [] ∧ newline (body ++ (List.replicate 3 quote ++ rest)) = none := by
    refine hstart.imp id fun ⟨hnil, hhead⟩ => ⟨hnil, ?_⟩
    exact h.newline_eq_none apart hhead _
  have hinput : [quote, quote, quote] ++ start ++ body ++ [quote, quote, quote] ++ rest =
      [quote, quote, quote] ++ (start ++ (body ++ (List.replicate 3 quote ++ rest))) := by
    simp [List.replicate]
  rw [hinput]
  exact hspells.multiline hrest hopening

/-- However a text is written, it is read back in front of anything but a further quote. -/
theorem scan_spelling (h : Spelling text spelled) (hquote : rest.head? ≠ some '"')
    (hapostrophe : rest.head? ≠ some '\'') : scan (spelled ++ rest) = some (text, rest) := by
  -- what begins with an apostrophe is no text between quotes
  have hbetween (tail : List Char) : multilineBasic ('\'' :: tail) = none ∧
      basic ('\'' :: tail) = none := ⟨rfl, rfl⟩
  cases h with
  | @basic body h =>
    have hseveral : multilineBasic ('"' :: (body ++ '"' :: rest)) = none := by
      rw [multilineBasic, Quoted.multiline, bind_apply,
        h.word_eq_none (apart_basicPart false) hquote]
      rfl
    rw [List.cons_append, List.append_assoc, List.singleton_append, scan, orElse_apply,
      orElse_apply, hseveral, basic_body h]
    rfl
  | @literal body h =>
    have hseveral : multilineLiteral ('\'' :: (body ++ '\'' :: rest)) = none := by
      rw [multilineLiteral, Quoted.multiline, bind_apply,
        h.word_eq_none (apart_literalPart false) hapostrophe]
      rfl
    rw [List.cons_append, List.append_assoc, List.singleton_append, scan, orElse_apply,
      orElse_apply, orElse_apply, (hbetween _).1, (hbetween _).2, hseveral, literal_body h]
    rfl
  | severalBasic hstart h =>
    have hread := h.multiline delimits_basicPart (apart_basicPart true) splits_basicPart hstart hquote
    rw [basicPart] at hread
    rw [scan, orElse_apply, multilineBasic, hread]
    rfl
  | severalLiteral hstart h =>
    have hread := h.multiline delimits_literalPart (apart_literalPart true) splits_literalPart hstart
      hapostrophe
    rw [literalPart] at hread
    rw [scan, orElse_apply, orElse_apply, orElse_apply, multilineLiteral, hread]
    rfl

theorem Spelling.exists_cons (h : Spelling text spelled) :
    ∃ tail, spelled = '"' :: tail ∨ spelled = '\'' :: tail := by
  cases h with
  | basic | severalBasic => exact ⟨_, .inl rfl⟩
  | literal | severalLiteral => exact ⟨_, .inr rfl⟩

end Quoted

end UniversalRemote.Toml
