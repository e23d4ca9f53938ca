import UniversalRemote.Proofs.Toml.Printing
import UniversalRemote.Proofs.Toml.Values
/-!
# Documents of plain lines

A document whose lines each give one bare key a value is read as these keys with these values, in order
(`Document.ofText?_lines`), and a flat table is written as such a document. So the way in which
documents are read and written here is standard (`standard_format`).
-/

namespace UniversalRemote.Toml

open Scan

variable {key : String} {v : Value} {spelled text rest : List Char} {entries : Entries}

/-! ## Bare keys -/

theorem bare_iff : isBare key = true ↔ key.toList ≠ [] ∧ ∀ c ∈ key.toList, isBareChar c = true := by
  simp [isBare]

theorem head?_ne_of_bare (h : isBare key = true) {c : Char} (hc : isBareChar c = false)
    (rest : List Char) : (key.toList ++ rest).head? ≠ some c := by
  obtain ⟨hne, hchars⟩ := bare_iff.1 h
  obtain ⟨first, later, hkey⟩ := List.exists_cons_of_ne_nil hne
  rw [hkey] at hchars ⊢
  rintro ⟨⟩
  rw [hchars c List.mem_cons_self] at hc
  cases hc

theorem blanks_bare (h : isBare key = true) (rest : List Char) :
    blanks (key.toList ++ rest) = some ((), key.toList ++ rest) :=
  blanks_of_head?_ne (head?_ne_of_bare h rfl rest) (head?_ne_of_bare h rfl rest)

theorem simpleKey_bare (h : isBare key = true) (rest : List Char) :
    simpleKey (key.toList ++ ' ' :: rest) = some (key, ' ' :: rest) := by
  have hquote := char_eq_none (head?_ne_of_bare h (c := '"') rfl (' ' :: rest))
  have hapostrophe := char_eq_none (head?_ne_of_bare h (c := '\'') rfl (' ' :: rest))
  obtain ⟨hne, hchars⟩ := bare_iff.1 h
  have hbare : takeWhile1 isBareChar (key.toList ++ ' ' :: rest) =
      some (key.toList, ' ' :: rest) := takeWhile1_append hchars hne rfl
  simp [simpleKey, Quoted.basic, Quoted.literal, hquote, hapostrophe, hbare]

theorem key_bare (h : isBare key = true) (rest : List Char) :
    Toml.key (key.toList ++ ' ' :: '=' :: rest) = some (([], key), '=' :: rest) := by
  have hfirst : (blanks *> simpleKey <* blanks) (key.toList ++ ' ' :: '=' :: rest) =
      some (key, '=' :: rest) := by
    have hbehind : blanks (' ' :: '=' :: rest) = some ((), '=' :: rest) := rfl
    rw [seqLeft_apply, seqRight_apply, blanks_bare h, Option.bind_some, simpleKey_bare h,
      Option.bind_some, hbehind]
    rfl
  have hparts : separatedBy (char '.') (blanks *> simpleKey <* blanks)
      (key.toList ++ ' ' :: '=' :: rest) = some ([key], '=' :: rest) :=
    Repeats.separatedBy hfirst (.stop rfl)
  rw [Toml.key, bind_apply, hparts]
  rfl

/-! ## Lines -/

namespace Statement

theorem assignment_bare (hkey : isBare key = true) (hvalue : v.Spelling spelled) (rest : List Char) :
    assignment (key.toList ++ ' ' :: '=' :: ' ' :: (spelled ++ '\n' :: rest)) =
      some (.assign [] key v, '\n' :: rest) := by
  have hblank : blanks (' ' :: (spelled ++ '\n' :: rest)) =
      some ((), spelled ++ '\n' :: rest) :=
    Value.blanks_spelling hvalue rest
  rw [assignment, bind_apply, key_bare hkey]
  simp [hblank, Value.scan_spelling hvalue]

theorem line_bare (hkey : isBare key = true) (hvalue : v.Spelling spelled) (rest : List Char) :
    line (key.toList ++ " = ".toList ++ spelled ++ '\n' :: rest) =
      some (some (.assign [] key v), '\n' :: rest) := by
  have hinput : key.toList ++ " = ".toList ++ spelled ++ '\n' :: rest =
      key.toList ++ ' ' :: '=' :: ' ' :: (spelled ++ '\n' :: rest) := by
    simp
  have hheader (tail : List Char) : elementHeader (key.toList ++ tail) = none ∧
      tableHeader (key.toList ++ tail) = none := by
    have hchar := char_eq_none (head?_ne_of_bare hkey (c := '[') rfl tail)
    simp [elementHeader, tableHeader, hchar]
  have hend : blanks ('\n' :: rest) = some ((), '\n' :: rest) := rfl
  have hscan : scan (key.toList ++ ' ' :: '=' :: ' ' :: (spelled ++ '\n' :: rest)) =
      some (.assign [] key v, '\n' :: rest) := by
    rw [scan, orElse_apply, orElse_apply, (hheader _).1, (hheader _).2,
      assignment_bare hkey hvalue]
    rfl
  rw [hinput, line, bind_apply, blanks_bare hkey, Option.bind_some, bind_apply, optional_apply,
    hscan]
  rfl

end Statement

def statement (entry : String × Value) : Statement :=
  .assign [] entry.1 entry.2

theorem Statement.scanAll_lines (h : Lines entries text) :
    scanAll text = some (entries.map statement, []) := by
  have hlines : ∃ first rest found, line text = some (first, rest) ∧ rest.length ≤ text.length ∧
      Repeats (newline *> line) rest found [] ∧
      (first :: found).filterMap id = entries.map statement := by
    induction h with
    | nil => exact ⟨none, [], [], rfl, Nat.le_refl _, .stop rfl, rfl⟩
    | @cons key v spelled text entries hkey hvalue more ih =>
      obtain ⟨first, rest, found, hfirst, hle, hmore, hfound⟩ := ih
      have hnext : (newline *> line) ('\n' :: text) = some (first, rest) := hfirst
      refine ⟨_, _, first :: found, line_bare hkey hvalue text, ?_,
        .step hnext (Nat.lt_succ_of_le hle) hmore, congrArg (statement (key, v) :: ·) hfound⟩
      rw [List.length_append]
      exact Nat.le_add_left _ _
  obtain ⟨first, rest, found, hfirst, -, hmore, hfound⟩ := hlines
  rw [scanAll, bind_apply, hmore.separatedBy hfirst, Option.bind_some, hfound]
  rfl

/-! ## Tables of such keys -/

theorem Entries.add_of_not_mem {entries : Entries} (h : key ∉ entries.map Prod.fst) (v : Value) :
    entries.add key v = some (entries ++ [(key, v)]) := by
  induction entries with
  | nil => rfl
  | cons entry entries ih =>
    rw [List.map_cons, List.mem_cons, not_or] at h
    obtain ⟨hne, hrest⟩ := h
    have hadd := ih hrest
    rw [add] at hadd
    rw [add, alter, if_neg (Ne.symm hne), hadd]
    rfl

namespace Document

theorem apply_statement (entry : String × Value) (entries : Entries) :
    apply ⟨entries, []⟩ (statement entry) =
      (entries.add entry.1 entry.2).map fun entries => ⟨entries, []⟩ := by
  have hassign : Entries.within .implied (Entries.assign [] entry.1 entry.2) [] .header entries =
      entries.add entry.1 entry.2 := by
    simp [Entries.within, Entries.assign]
  simp only [statement, apply, hassign]
  cases entries.add entry.1 entry.2 <;> rfl

theorem foldlM_statements {before entries : Entries}
    (h : ((before ++ entries).map Prod.fst).Nodup) :
    (entries.map statement).foldlM apply ⟨before, []⟩ = some ⟨before ++ entries, []⟩ := by
  induction entries generalizing before with
  | nil =>
    rw [List.append_nil]
    rfl
  | cons entry entries ih =>
    have hnew : entry.1 ∉ before.map Prod.fst := by
      rw [List.map_append, List.nodup_append] at h
      exact fun hmem => h.2.2 _ hmem _ List.mem_cons_self rfl
    have hmove : before ++ entry :: entries = before ++ [entry] ++ entries := by
      rw [List.append_assoc]
      rfl
    rw [hmove] at h ⊢
    rw [List.map_cons, List.foldlM_cons, apply_statement, Entries.add_of_not_mem hnew]
    exact ih h

/-- A document of lines with keys that are all different holds these keys and their values. -/
theorem ofText?_lines (h : Lines entries text) (hkeys : (entries.map Prod.fst).Nodup) :
    ofText? text = some entries := by
  have hmark : text.head? ≠ some '\ufeff' := by
    cases h with
    | nil => exact nofun
    | cons hkey hvalue more =>
      rw [List.append_assoc, List.append_assoc]
      exact head?_ne_of_bare hkey (by decide) _
  have hwhole : Statement.scanAll.whole? text = some (entries.map statement) := by
    rw [whole?, Statement.scanAll_lines h]
  have hfold : (entries.map statement).foldlM apply {} = some ⟨entries, []⟩ :=
    foldlM_statements hkeys
  simp [ofText?, if_neg hmark, hwhole, hfold]

end Document

/-! ## Tables as they are written -/

theorem Value.exists_print? (h : v.IsPlain) : ∃ spelled, v.print? = some spelled ∧ v.Spelling spelled := by
  cases v with
  | string text => exact ⟨_, rfl, .string (Quoted.spelling_print text.toList)⟩
  | integer n =>
    obtain ⟨hn, hlt⟩ := h
    obtain ⟨n, rfl⟩ := Int.eq_ofNat_of_zero_le hn
    exact ⟨Decimal.digits n, by simp [print?], .integer (by omega)⟩
  | boolean b => exact ⟨_, rfl, .boolean b⟩
  | _ => exact h.elim

theorem Document.exists_print? (hbare : ∀ entry ∈ entries, isBare entry.1 = true)
    (hplain : ∀ entry ∈ entries, entry.2.IsPlain) :
    ∃ text, Document.print? entries = some text ∧ Lines entries text := by
  induction entries with
  | nil => exact ⟨[], rfl, .nil⟩
  | cons entry entries ih =>
    obtain ⟨hkey, hbare⟩ := List.forall_mem_cons.1 hbare
    obtain ⟨hvalue, hplain⟩ := List.forall_mem_cons.1 hplain
    obtain ⟨spelled, hspelled, hspelling⟩ := Value.exists_print? hvalue
    obtain ⟨text, htext, hlines⟩ := ih hbare hplain
    refine ⟨_, ?_, .cons hkey hspelling hlines⟩
    simp [Document.print?, hkey, hspelled, htext]

/-- Documents are read and written here as TOML has it. -/
theorem standard_format : format.Standard where
  writes entries h := by
    obtain ⟨text, htext, hlines⟩ := Document.exists_print? h.bare h.plain
    refine ⟨String.ofList text, entries, ?_, ?_, .refl entries⟩
    · simp [format, htext]
    · rwa [String.toList_ofList]
  reads text lines hlines h := ⟨lines, Document.ofText?_lines hlines h.nodup, .refl lines⟩

end UniversalRemote.Toml
