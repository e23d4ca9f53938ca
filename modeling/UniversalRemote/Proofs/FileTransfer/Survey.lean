import Mathlib.Data.List.TakeWhile
import UniversalRemote.Proofs.FileTransfer.Simulation
import UniversalRemote.Proofs.Remote.WordLimits
import UniversalRemote.Proofs.Text.Digits
/-!
# Asking for the identity

What a remote sends where it is asked for its identity is described here without the host: two
answers, the transfer of its description, and the size of its stored configuration.
`identify_eq_ok_iff` says that a remote has an identity exactly from such reports, and which one.
-/

namespace UniversalRemote.FileTransfer

open Exchange

/-- What a remote sends where it is asked for its identity. -/
structure Survey where
  /-- The answers to the two messages behind the greeting. -/
  contact : Report
  state : Report
  description : Reading
  /-- The answer that tells the size of the stored configuration. -/
  opening : Report
  /-- The answer to the release of the token under which the size is asked for. -/
  closing : Report

namespace Survey

variable (q : Survey)

def reports : List Report :=
  q.contact :: q.state :: (q.description.reports ++ [q.opening, q.closing])

def size : Nat :=
  ByteOrder.big.value ((q.opening.drop 7).take 4)

/-- The description, up to its first zero byte. -/
def text : List Char :=
  Utf8.scalars (q.description.data.takeWhile (· != 0))

/-- The identity that the reports tell. The chip has 512 KiB, and four bytes of the configuration
are its end marker. -/
def identity : Identity :=
  { Sysinfo.identity q.description.data with
    area := { valid := true, used := UInt32.ofNat (q.size + 4), capacity := 0x80000 } }

/-- The reports answer everything that a remote is asked. -/
structure Valid : Prop where
  description : q.description.Valid
  opening : 11 ≤ q.opening.length
  /-- The size leaves room for the end marker. -/
  size : q.size < 0xFFFFFFFC

end Survey

variable {dialogue : List Turn}

theorem yields_greet {times : Nat} {u : Unit} :
    (greet times).Yields dialogue u ↔ dialogue = List.replicate times (.say hello) := by
  induction times generalizing dialogue with
  | zero => exact yields_pure.trans (and_iff_left rfl)
  | succ times ih =>
    rw [greet, yields_bind]
    constructor
    · rintro ⟨_, _, rest, rfl, hsend, hrest⟩
      rw [yields_send.1 hsend, ih.1 hrest]
      rfl
    · rintro rfl
      exact ⟨(), [.say hello], _, rfl, yields_send.2 rfl, ih.2 rfl⟩

theorem yields_survey {identity : Identity} :
    survey.Yields dialogue identity ↔ ∃ contact state contents rest,
      dialogue = List.replicate 5 (.say hello) ++
        (.say [0xFF, 0xFF, 0x01, 0x01, 0x01, 0x66] :: .hear contact ::
          .say [0xFF, 0x00, 0x02] :: .hear state :: rest) ∧
      (fetch sysinfoName 0x03 .identify).Yields rest contents ∧
      Sysinfo.identity contents = identity := by
  unfold survey
  constructor
  · intro h
    obtain ⟨_, _, _, rfl, hgreet, h⟩ := yields_bind.1 h
    obtain ⟨contact, _, _, rfl, hcontact, h⟩ := yields_bind.1 h
    obtain ⟨state, _, _, rfl, hstate, h⟩ := yields_bind.1 h
    obtain ⟨contents, rest, _, rfl, hfetch, h⟩ := yields_bind.1 h
    obtain ⟨rfl, hidentity⟩ := yields_pure.1 h
    rw [yields_greet.1 hgreet, yields_converse.1 hcontact, yields_converse.1 hstate,
      List.append_nil]
    exact ⟨contact, state, contents, rest, rfl, hfetch, hidentity⟩
  · rintro ⟨contact, state, contents, rest, rfl, hfetch, rfl⟩
    refine yields_bind.2 ⟨(), _, _, rfl, yields_greet.2 rfl, yields_bind.2 ?_⟩
    refine ⟨contact, [_, _], _, rfl, yields_converse.2 rfl, yields_bind.2 ?_⟩
    refine ⟨state, [_, _], _, rfl, yields_converse.2 rfl, yields_bind.2 ?_⟩
    exact ⟨contents, rest, [], (List.append_nil _).symm, hfetch, yields_pure.2 ⟨rfl, rfl⟩⟩

theorem yields_measured {identity measure : Identity} {length : Nat} :
    (measured identity length).Yields dialogue measure ↔ dialogue = [] ∧
      ∃ used, usedBytes length = some used ∧
        { identity with
          area := ⟨true, used, ((identity.chip.map (·.kibibytes)).getD 0) <<< 10⟩ } = measure := by
  unfold measured
  cases usedBytes length with
  | none => exact ⟨fun h => absurd h not_yields_throw, fun ⟨_, _, h, _⟩ => nomatch h⟩
  | some used =>
    refine yields_pure.trans (and_congr_right fun _ => ?_)
    simp only [Option.some.injEq, exists_eq_left']

/-- Where there is room for the end marker, it is counted with the size that four bytes tell. -/
theorem usedBytes_eq_some_iff {bytes : List UInt8} (h : bytes.length = 4) {used : UInt32} :
    usedBytes (ByteOrder.big.value bytes) = some used ↔
      ByteOrder.big.value bytes < 0xFFFFFFFC ∧
        UInt32.ofNat (ByteOrder.big.value bytes + 4) = used := by
  have hsum : UInt32.ofNat (ByteOrder.big.value bytes) + 4 =
      UInt32.ofNat (ByteOrder.big.value bytes + 4) := (UInt32.ofNat_add _ _).symm
  have hnone := usedBytes_eq_none_iff h
  rw [usedBytes, checkedSum] at hnone ⊢
  split
  · rename_i hroom
    rw [if_pos hroom] at hnone
    have hsize : ByteOrder.big.value bytes < 0xFFFFFFFC := by
      rw [← Nat.not_le, ← hnone]
      exact Option.some_ne_none _
    rw [hsum, Option.some.injEq, and_iff_right hsize]
  · rename_i hfull
    rw [if_neg hfull] at hnone
    have hsize := Nat.not_lt.2 (hnone.1 rfl)
    exact iff_of_false (Option.some_ne_none used).symm fun h => hsize h.1

namespace Survey

variable {q : Survey}

theorem length_sizeBytes {opening : Report} (h : 11 ≤ opening.length) :
    ((opening.drop 7).take 4).length = 4 := by
  rw [List.length_take, List.length_drop]
  omega

theorem chip_identity (contents : List UInt8) :
    (Sysinfo.identity contents).chip = some .s25fl040 :=
  rfl

theorem identity_eq (q : Survey) :
    let identity := Sysinfo.identity q.description.data
    { identity with area := ⟨true, UInt32.ofNat (q.size + 4),
        ((identity.chip.map (·.kibibytes)).getD 0) <<< 10⟩ } = q.identity := by
  have hcapacity : FlashChip.s25fl040.kibibytes <<< 10 = 0x80000 := by decide
  intro described
  rw [chip_identity, Option.map_some, Option.getD_some, hcapacity, identity]

theorem exists_of_yields {identity : Identity} (h : identify.Yields dialogue identity) :
    ∃ q : Survey, q.Valid ∧ q.identity = identity ∧ Hears dialogue q.reports := by
  rw [identify_eq] at h
  obtain ⟨surveyed, _, _, rfl, hsurvey, h⟩ := yields_bind.1 h
  obtain ⟨length, _, _, rfl, hlength, hmeasured⟩ := yields_bind.1 h
  obtain ⟨contact, state, contents, rest, rfl, hfetch, rfl⟩ := yields_survey.1 hsurvey
  obtain ⟨opening, closing, rfl, hopening, rfl⟩ := yields_configLength.1 hlength
  obtain ⟨rfl, used, hused, rfl⟩ := yields_measured.1 hmeasured
  obtain ⟨hsize, rfl⟩ := (usedBytes_eq_some_iff (length_sizeBytes hopening)).1 hused
  obtain ⟨description, hdescription, rfl, rfl⟩ :=
    Reading.exists_of_yields_fetch (by decide) 3 hfetch
  have hheard := description.hears_dialogue 3 sysinfoName
  refine ⟨⟨contact, state, description, opening, closing⟩, ⟨hdescription, hopening, hsize⟩, ?_, ?_⟩
  · exact (identity_eq _).symm
  · refine ⟨rfl, rfl, rfl, rfl, rfl, rfl, contact, _, rfl, rfl, rfl, state, _, rfl, rfl, ?_⟩
    exact hheard.append ⟨rfl, opening, _, rfl, rfl, rfl, closing, [], rfl, rfl, rfl⟩

theorem Valid.yields (h : q.Valid) :
    ∃ dialogue, Hears dialogue q.reports ∧ identify.Yields dialogue q.identity := by
  have hname : sysinfoName.utf8ByteSize ≤ 55 := by decide
  have hfetch := h.description.yields_fetch hname 3 .identify
  have hheard := q.description.hears_dialogue 3 sysinfoName
  have hsurvey := yields_survey.2 ⟨q.contact, q.state, _, _, rfl, hfetch, rfl⟩
  have hlength := yields_configLength.2 ⟨q.opening, q.closing, rfl, h.opening, rfl⟩
  have hused := (usedBytes_eq_some_iff (length_sizeBytes h.opening)).2 ⟨h.size, rfl⟩
  have hmeasured := yields_measured.2 ⟨rfl, _, hused, identity_eq q⟩
  have hmeasure := yields_bind.2 ⟨_, _, [], rfl, hlength, hmeasured⟩
  have hidentify : identify.Yields _ q.identity :=
    identify_eq ▸ yields_bind.2 ⟨_, _, _, rfl, hsurvey, hmeasure⟩
  refine ⟨_, ?_, hidentify⟩
  refine ⟨rfl, rfl, rfl, rfl, rfl, rfl, q.contact, _, rfl, rfl, rfl, q.state, _, rfl, rfl, ?_⟩
  exact hheard.append ⟨rfl, q.opening, _, rfl, rfl, rfl, q.closing, [], rfl, rfl, rfl⟩

end Survey

/-- A remote has an identity exactly if the script begins with what makes up the answers to all
questions, and it is the one that these tell. -/
theorem identify_eq_ok_iff (s : Script) (hwrites : ∀ n, s.failures n = none) (identity : Identity) :
    (identify.run.run Script.device s).result = .ok identity ↔
      ∃ q : Survey, q.Valid ∧ q.identity = identity ∧
        ∃ rest, s.reads = q.reports.map .report ++ rest := by
  constructor
  · intro hresult
    have htakes := Program.takes_run identify.run Script.device s
    rw [hresult] at htakes
    obtain ⟨q, hvalid, hidentity, hheard⟩ := Survey.exists_of_yields htakes
    exact ⟨q, hvalid, hidentity, _, Script.reads_of_hears hheard⟩
  · rintro ⟨q, hvalid, rfl, rest, hreads⟩
    obtain ⟨dialogue, hheard, hyields⟩ := hvalid.yields
    exact Script.result_of_hears hyields hheard hreads hwrites

namespace Survey

/-! ## Any short description -/

/-- What a remote says that makes the same choices all the time. -/
def plain : Choice where
  token := 0x05
  head := (0xFF, 0x01, 0x00, 0x03, 0x01)
  between := 0x04
  declared := 0
  number := 0
  mark := 3
  padding := []
  reply := [0xFF]

/-- What a remote sends that describes itself by a text of one-byte characters, which fifty packets
are enough for. Its configuration takes up 1024 bytes. -/
def ofText (text : List Char) : Survey :=
  let contents := text.map fun c => UInt8.ofNat c.toNat
  let packets := Simulated.packets ⟨fun _ => plain, false⟩ 0 0 (chunks 62 contents)
  { contact := plain.reply
    state := plain.reply
    description :=
      { opening := plain.opening contents.length
        answer := plain.reply
        packets := packets
        stream := packets
        closing := plain.reply }
    opening := plain.opening 1024
    closing := plain.reply }

section OfText

variable {text : List Char}

theorem pieces_ofText (text : List Char) :
    ∀ chunk ∈ chunks 62 (text.map fun c => UInt8.ofNat c.toNat), chunk.length < 64 :=
  fun _ h => Nat.lt_of_le_of_lt (length_le_of_mem_chunks (by decide) h) (by decide)

theorem data_ofText (text : List Char) :
    (ofText text).description.data = text.map fun c => UInt8.ofNat c.toNat :=
  (Simulated.flatMap_payload_packets 0 0 (pieces_ofText text)).trans (flatten_chunks 62 _)

theorem opened_ofText (hlength : text.length ≤ 3100) :
    11 ≤ (ofText text).description.opening.length ∧
      (ofText text).description.length = text.length := by
  have hopened := plain.opened_opening text.length
  rw [Nat.mod_eq_of_lt (by omega)] at hopened
  obtain ⟨hlong, -, hvalue⟩ := opened_eq_ok_iff.1 hopened
  have hopening : (ofText text).description.opening = plain.opening text.length := by
    rw [← List.length_map fun c : Char => UInt8.ofNat c.toNat]
    rfl
  rw [Reading.length, hopening]
  exact ⟨hlong, hvalue⟩

theorem valid_ofText (hlength : text.length ≤ 3100) : (ofText text).Valid := by
  obtain ⟨hopening, htold⟩ := opened_ofText hlength
  have hcount : (ofText text).description.packets.length = (text.length + 61) / 62 := by
    refine (Simulated.length_packets 0 0 _).trans ?_
    rw [length_chunks (by decide), List.length_map]
    rfl
  have hpauses : (ofText text).description.pauses = 0 := by
    rw [Reading.pauses, hcount]
    omega
  have hsum : ((ofText text).description.packets.map payloadSize).sum = text.length := by
    refine (Simulated.sum_payloadSize_packets (pieces_ofText text)).trans ?_
    rw [flatten_chunks, List.length_map]
  refine ⟨⟨hopening, ?_, ?_, fun i hi => ?_, ?_, ?_, ?_⟩, ?_, ?_⟩
  · rw [hcount, htold]
  · rw [hpauses]
    rfl
  · have hplace : i + i / 50 = i := by omega
    rw [hplace]
    rfl
  · exact Simulated.full_of_mem_packets (pieces_ofText text)
  · exact inRow_none.1 (Simulated.inRow_packets 0 0 _)
  · rw [hsum, htold]
  · show 11 ≤ (plain.opening 1024).length
    decide
  · show ByteOrder.big.value (((plain.opening 1024).drop 7).take 4) < 0xFFFFFFFC
    decide

theorem text_ofText (hascii : ∀ c ∈ text, 0 < c.toNat ∧ c.toNat < 0x80) :
    (ofText text).text = text := by
  have hnonzero : ∀ b ∈ text.map fun c => UInt8.ofNat c.toNat, (b != 0) = true := by
    intro b hb
    obtain ⟨c, hc, rfl⟩ := List.mem_map.1 hb
    obtain ⟨hpos, hlt⟩ := hascii c hc
    exact bne_iff_ne.2 (Utf8.zero_ne_ofNat hpos (by omega)).symm
  have hscalars := Utf8.scalars_ascii (fun c hc => (hascii c hc).2) []
  rw [Survey.text, data_ofText, List.takeWhile_eq_self_iff.2 hnonzero]
  rwa [List.append_nil, Utf8.scalars, List.append_nil] at hscalars

end OfText

end Survey

end UniversalRemote.FileTransfer
