import UniversalRemote.Proofs.Text.Encoding
import UniversalRemote.Proofs.Toml.Lines
import UniversalRemote.Session.Settings
/-!
# Settings are read back from their file

In whatever format settings are saved, they are loaded again as they are, if only the format is that of
TOML (`loaded_as_saved`).
-/

namespace UniversalRemote

/-! ## Tables in any order -/

namespace Toml.Entries

variable {entries others : Entries}

theorem lookup_eq_some_iff (hkeys : (entries.map Prod.fst).Nodup) {key : String} {v : Value} :
    entries.lookup key = some v ↔ (key, v) ∈ entries := by
  induction entries with
  | nil => simp
  | cons entry entries ih =>
    obtain ⟨other, value⟩ := entry
    rw [List.map_cons, List.nodup_cons] at hkeys
    by_cases hkey : key = other
    · subst hkey
      have hnone : (key, v) ∉ entries := fun hmem =>
        hkeys.1 (List.mem_map.2 ⟨(key, v), hmem, rfl⟩)
      simp [hnone, eq_comm]
    · simp [List.lookup_cons, beq_false_of_ne hkey, hkey, ih hkeys.2]

/-- What a key holds does not depend on the order of the entries. -/
theorem lookup_perm (h : entries.Perm others) (hkeys : (entries.map Prod.fst).Nodup) (key : String) :
    entries.lookup key = others.lookup key := by
  have hothers : (others.map Prod.fst).Nodup := (h.map Prod.fst).nodup_iff.1 hkeys
  refine Option.ext fun v => ?_
  rw [lookup_eq_some_iff hkeys, lookup_eq_some_iff hothers, h.mem_iff]

theorem Flat.perm (h : entries.Flat) (hperm : others.Perm entries) : others.Flat where
  bare entry hentry := h.bare entry (hperm.mem_iff.1 hentry)
  plain entry hentry := h.plain entry (hperm.mem_iff.1 hentry)
  nodup := (hperm.map Prod.fst).nodup_iff.2 h.nodup

end Toml.Entries

namespace Family

theorem ofName?_name (f : Family) : ofName? f.name = some f := by
  cases f <;> decide

end Family

namespace Settings

open Toml

/-! ## The entries -/

theorem mem_elim {o : Option α} {key : String} {write : α → Value} {entry : String × Value}
    (h : entry ∈ (o.elim [] fun a => [(key, write a)] : Entries)) :
    ∃ a, entry = (key, write a) := by
  cases o with
  | none => cases h
  | some a => exact ⟨a, List.mem_singleton.1 h⟩

theorem mem_entries {s : Settings} {entry : String × Value} (h : entry ∈ s.entries) :
    (∃ f : Family, entry = (familyKey, .string f.name)) ∨
    (∃ text, entry = (addressKey, .string text)) ∨
    (∃ n : UInt16, entry = (vendorKey, .integer n.toNat) ∨ entry = (productKey, .integer n.toNat)) ∨
    ∃ b, entry = (verifiesKey, .boolean b) := by
  simp only [entries, List.mem_append] at h
  rcases h with (((h | h) | h) | h) | h
  · exact .inl (mem_elim h)
  · exact .inr (.inl ⟨_, List.mem_singleton.1 h⟩)
  · obtain ⟨n, hn⟩ := mem_elim h
    exact .inr (.inr (.inl ⟨n, .inl hn⟩))
  · obtain ⟨n, hn⟩ := mem_elim h
    exact .inr (.inr (.inl ⟨n, .inr hn⟩))
  · exact .inr (.inr (.inr ⟨_, List.mem_singleton.1 h⟩))

theorem nodup_entries (s : Settings) : (s.entries.map Prod.fst).Nodup := by
  obtain ⟨_ | f, address, _ | vendor, _ | product, verifies⟩ := s <;>
    simp [entries, familyKey, addressKey, vendorKey, productKey, verifiesKey]

theorem flat_entries (s : Settings) : s.entries.Flat := by
  obtain ⟨hfamily, haddress, hvendor, hproduct, hverifies⟩ :
      isBare familyKey = true ∧ isBare addressKey = true ∧ isBare vendorKey = true ∧
        isBare productKey = true ∧ isBare verifiesKey = true := by decide
  have hword (n : UInt16) : (0 : Int) ≤ n.toNat ∧ (n.toNat : Int) < 0x8000000000000000 := by
    have := n.toNat_lt
    omega
  refine ⟨fun entry hentry => ?_, fun entry hentry => ?_, s.nodup_entries⟩
  · obtain ⟨f, rfl⟩ | ⟨text, rfl⟩ | ⟨n, rfl | rfl⟩ | ⟨b, rfl⟩ := mem_entries hentry
    all_goals assumption
  · obtain ⟨f, rfl⟩ | ⟨text, rfl⟩ | ⟨n, rfl | rfl⟩ | ⟨b, rfl⟩ := mem_entries hentry
    · trivial
    · trivial
    · exact hword n
    · exact hword n
    · trivial

/-! ## Settings from entries -/

theorem word?_integer (n : UInt16) : word? (.integer n.toNat) = some n := by
  have := n.toNat_lt
  have hrange : 0 ≤ (n.toNat : Int) ∧ (n.toNat : Int) < 0x10000 := by omega
  simp [word?, hrange]

theorem lookup_elim (key other : String) (o : Option α) (write : α → Value) :
    (o.elim [] fun a => [(other, write a)]).lookup key =
      if key = other then o.map write else none := by
  cases o with
  | none => split <;> rfl
  | some a =>
    by_cases h : key = other
    · simp [h]
    · simp [List.lookup_cons, h, beq_false_of_ne h]

/-- Each key has the setting that is kept under it. -/
theorem lookup_entries (s : Settings) :
    s.entries.lookup familyKey = s.family.map (fun f => .string f.name) ∧
      s.entries.lookup addressKey = some (.string s.address) ∧
      s.entries.lookup vendorKey = s.vendorId.map (fun n => .integer n.toNat) ∧
      s.entries.lookup productKey = s.productId.map (fun n => .integer n.toNat) ∧
      s.entries.lookup verifiesKey = some (.boolean s.verifies) := by
  simp [entries, List.lookup_append, List.lookup_cons, lookup_elim, familyKey, addressKey,
    vendorKey, productKey, verifiesKey]

theorem field_of_lookup {entries : Entries} {key : String} {o : Option α} {write : α → Value}
    {read? : Value → Option α} (hlookup : entries.lookup key = o.map write)
    (hread : ∀ a, read? (write a) = some a) :
    field entries key none (fun v => some <$> read? v) = some o := by
  rw [field, hlookup]
  cases o with
  | none => rfl
  | some a => simp [hread]

/-- Entries in any order give the settings that were kept as them. -/
theorem ofEntries?_perm {s : Settings} {found : Entries} (h : found.Perm s.entries) :
    ofEntries? found = some s := by
  have hlookup := Entries.lookup_perm h (s.flat_entries.perm h).nodup
  obtain ⟨hfamily, haddress, hvendor, hproduct, hverifies⟩ := s.lookup_entries
  rw [← hlookup] at hfamily haddress hvendor hproduct hverifies
  have address : field found addressKey (Settings.address {}) string? = some s.address := by
    rw [field, haddress]
    rfl
  have verifies : field found verifiesKey (Settings.verifies {}) boolean? = some s.verifies := by
    rw [field, hverifies]
    rfl
  rw [ofEntries?, field_of_lookup hfamily Family.ofName?_name, address,
    field_of_lookup hvendor word?_integer, field_of_lookup hproduct word?_integer, verifies]
  rfl

/-! ## The file -/

/-- Settings are saved in a format of TOML, and loaded from what was saved as they are, whatever they
are. -/
theorem loaded_as_saved (format : Format) (hformat : format.Standard) (s : Settings) :
    ∃ bytes, s.save? format = some bytes ∧ load? format bytes = some s := by
  obtain ⟨text, lines, hprint, hlines, hperm⟩ := hformat.writes s.entries s.flat_entries
  obtain ⟨found, hread, hfound⟩ := hformat.reads text lines hlines (s.flat_entries.perm hperm)
  refine ⟨Utf8.encode text, ?_, ?_⟩
  · rw [save?, hprint]
    rfl
  · have hdecode : Utf8.decode? (Utf8.encode text) = some text := Utf8.decode?_encode text
    simp [load?, hdecode, hread, ofEntries?_perm (hfound.trans hperm)]

/-- An address of several lines, with quotes, a backslash and a control character in it. -/
theorem loaded_as_saved_several_lines :
    let s : Settings := { address := "\"a\"\n'''\\\x01", productId := some 0xC11F }
    Toml.format.Standard ∧ ∃ bytes, s.save? Toml.format = some bytes ∧
      load? Toml.format bytes = some s :=
  ⟨standard_format, loaded_as_saved Toml.format standard_format _⟩

end Settings

end UniversalRemote
