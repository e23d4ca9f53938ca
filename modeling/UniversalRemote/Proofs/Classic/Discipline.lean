import UniversalRemote.Proofs.Classic.Framing
import UniversalRemote.Proofs.Link.Ensures
/-!
# The discipline of writing flash

What may be sent to a classic remote depends on what has been answered. Flash is erased and written
only behind an invalidation that was acknowledged, written only where it was erased, and in one
ascending sweep. `Permitted` states this for one report behind the steps before it; the loops that
erase and write keep to it on every branch.
-/

namespace UniversalRemote.Classic

open Exchange

/-! ## Commands -/

def invalidation : Report := [0xA1, 0x02]

/-- The report that tells a remote to erase the sector at an address: a code, and the low three bytes
of the address, the highest first. -/
def erasing (address : UInt32) : Report :=
  [0xD3, UInt8.ofNat (address.toNat / 65536), UInt8.ofNat (address.toNat / 256),
    UInt8.ofNat address.toNat]

theorem eraseCommand_eq (address : UInt32) : eraseCommand address = erasing address := by
  have hhigh : address.toNat / 256 / 256 = address.toNat / 65536 := Nat.div_div_eq_div_mul _ _ _
  simp [eraseCommand, addressBytes, ByteOrder.bytes, ByteOrder.littleBytes, erasing, hhigh]

def addressOf (report : Report) : Nat :=
  ByteOrder.big.value ((report.drop 1).take 3)

def lengthOf (report : Report) : Nat :=
  ByteOrder.big.value ((report.drop 4).take 2)

def Commands (command : UInt8) (report : Report) : Prop :=
  kind (report.headD 0) = command

instance (command : UInt8) (report : Report) : Decidable (Commands command report) :=
  inferInstanceAs (Decidable (_ = _))

abbrev Erases : Report → Prop := Commands 0xD0

abbrev Programs : Report → Prop := Commands 0x30

abbrev Fills : Report → Prop := Commands 0x40

def Alters (report : Report) : Prop :=
  Erases report ∨ Programs report ∨ Fills report

def Modifies (report : Report) : Prop :=
  report = invalidation ∨ Alters report

instance (report : Report) : Decidable (Alters report) :=
  inferInstanceAs (Decidable (_ ∨ _))

instance (report : Report) : Decidable (Modifies report) :=
  inferInstanceAs (Decidable (_ ∨ _))

theorem addressOf_erasing {address : UInt32} (h : address.toNat < 0x1000000) :
    addressOf (erasing address) = address.toNat := by
  rw [addressOf, ← eraseCommand_eq, eraseCommand, List.drop_succ_cons, List.drop_zero,
    List.take_of_length_le (by simp [addressBytes])]
  exact value_addressBytes h

section Length

variable (code : UInt8) (address : UInt32)

theorem addressOf_command (h : address.toNat < 0x1000000) (length : Nat) :
    addressOf (code :: addressBytes address ++ ByteOrder.big.bytes 2 length) = address.toNat := by
  rw [addressOf, List.cons_append, List.drop_succ_cons, List.drop_zero, take_addressBytes]
  exact value_addressBytes h

theorem lengthOf_command {length : Nat} (h : length < 0x10000) :
    lengthOf (code :: addressBytes address ++ ByteOrder.big.bytes 2 length) = length := by
  have hdrop : (code :: addressBytes address ++ ByteOrder.big.bytes 2 length).drop 4 =
      ByteOrder.big.bytes 2 length := drop_addressBytes address _
  rw [lengthOf, hdrop, List.take_of_length_le (by simp), ByteOrder.value_bytes]
  exact Nat.mod_eq_of_lt h

end Length

theorem addressOf_writeCommand {address : UInt32} (h : address.toNat < 0x1000000) (length : Nat) :
    addressOf (writeCommand address length) = address.toNat :=
  addressOf_command 0x35 address h length

theorem lengthOf_writeCommand (address : UInt32) {length : Nat} (h : length < 0x10000) :
    lengthOf (writeCommand address length) = length :=
  lengthOf_command 0x35 address h

/-! ## What has been done -/

/-- The remote has acknowledged that the stored configuration is invalid. -/
def Invalidated (past : List Step) : Prop :=
  ∃ timeout code rest, kind code = done ∧
    [.wrote invalidation (.ok ()), .read timeout (.ok (code :: 0x02 :: rest))] <:+: past

/-- The remote has answered the command to erase a sector. -/
def Erased (past : List Step) (s : Sector) : Prop :=
  ∃ timeout answer, answer ≠ [] ∧
    [.wrote (erasing s.first) (.ok ()), .read timeout (.ok answer)] <:+: past

/-- The number of bytes that a step announces for writing. -/
def programs : Step → Nat
  | .wrote report _ => if Programs report then lengthOf report else 0
  | _ => 0

def programmed : List Step → Nat
  | [] => 0
  | step :: rest => programs step + programmed rest

variable {past later : List Step}

theorem Invalidated.mono (h : Invalidated past) (hlater : past <+: later) : Invalidated later := by
  obtain ⟨timeout, code, rest, hcode, hin⟩ := h
  exact ⟨timeout, code, rest, hcode, hin.trans hlater.isInfix⟩

theorem Erased.mono {s : Sector} (h : Erased past s) (hlater : past <+: later) : Erased later s := by
  obtain ⟨timeout, answer, hanswer, hin⟩ := h
  exact ⟨timeout, answer, hanswer, hin.trans hlater.isInfix⟩

theorem programmed_append (past more : List Step) :
    programmed (past ++ more) = programmed past + programmed more := by
  induction past with
  | nil => rw [List.nil_append, programmed, Nat.zero_add]
  | cons step rest ih => rw [List.cons_append, programmed, programmed, ih, Nat.add_assoc]

theorem programmed_snoc (past : List Step) (step : Step) :
    programmed (past ++ [step]) = programmed past + programs step :=
  programmed_append past [step]

theorem programmed_read (timeout : Nat) (outcome : Except LinkError Report) (past : List Step) :
    programmed (past ++ [.read timeout outcome]) = programmed past :=
  programmed_snoc past _

theorem programmed_told (event : Event) (past : List Step) :
    programmed (past ++ [.told event]) = programmed past :=
  programmed_snoc past _

theorem programmed_wrote {report : Report} (h : ¬ Programs report)
    (outcome : Except LinkError Unit) (past : List Step) :
    programmed (past ++ [.wrote report outcome]) = programmed past := by
  rw [programmed_snoc, programs, if_neg h, Nat.add_zero]

/-! ## What is permitted -/

/-- What may be written behind some steps: flash is changed only once the configuration is invalid,
erased only where the range of `length` bytes at `base` is, and written in one sweep over that range,
before `stop` and where it has been erased. The address that a command carries is the one meant. -/
structure Permitted (layout : SectorLayout) (base stop length : Nat) (past : List Step)
    (report : Report) : Prop where
  invalidated : Alters report → Invalidated past
  erase : Erases report → ∃ s, layout.Has s ∧ report = erasing s.first ∧
    addressOf report = s.first.toNat ∧ s.Overlaps base length
  program : Programs report → addressOf report = base + programmed past ∧
    addressOf report + lengthOf report ≤ stop ∧
    ∀ address, addressOf report ≤ address → address < addressOf report + lengthOf report →
      ∃ s, layout.Has s ∧ s.Holds address ∧ Erased past s

variable {layout : SectorLayout} {base stop length : Nat}

theorem permitted_of_not_alters {report : Report} (h : ¬ Alters report) :
    Permitted layout base stop length past report :=
  ⟨fun h' => absurd h' h, fun h' => absurd (.inl h') h, fun h' => absurd (.inr (.inl h')) h⟩

theorem permitted_of_fills {report : Report} (hinvalidated : Invalidated past)
    (h : Fills report) : Permitted layout base stop length past report := by
  have hkind : kind (report.headD 0) = 0x40 := h
  refine ⟨fun _ => hinvalidated, fun h' => ?_, fun h' => ?_⟩
  · exact absurd (hkind.symm.trans h') (by decide)
  · exact absurd (hkind.symm.trans h') (by decide)

theorem erases_erasing (address : UInt32) : Erases (erasing address) := by
  rw [Erases, Commands, erasing, List.headD_cons]
  decide

theorem permitted_erase {s : Sector} (hinvalidated : Invalidated past) (hs : layout.Has s)
    (hoverlaps : s.Overlaps base length) (haddress : s.first.toNat < 0x1000000) :
    Permitted layout base stop length past (erasing s.first) := by
  refine ⟨fun _ => hinvalidated, fun _ => ⟨s, hs, rfl, addressOf_erasing haddress, hoverlaps⟩,
    fun h' => ?_⟩
  exact absurd ((erases_erasing s.first).symm.trans h') (by decide)

theorem programs_writeCommand (address : UInt32) (length : Nat) :
    Programs (writeCommand address length) := by
  rw [Programs, Commands, writeCommand, List.cons_append, List.headD_cons]
  decide

theorem programmed_writeCommand (address : UInt32) {size : Nat} (h : size < 0x10000)
    (outcome : Except LinkError Unit) (past : List Step) :
    programmed (past ++ [.wrote (writeCommand address size) outcome]) = programmed past + size := by
  rw [programmed_snoc, programs, if_pos (programs_writeCommand address size),
    lengthOf_writeCommand address h]

theorem permitted_write {address : UInt32} {size : Nat} (hinvalidated : Invalidated past)
    (haddress : address.toNat = base + programmed past) (hsize : 0 < size) (hsize' : size < 0x10000)
    (hstop : address.toNat + size ≤ stop) (hstop' : stop ≤ 0x1000000)
    (herased : ∀ place, address.toNat ≤ place → place < address.toNat + size →
      ∃ s, layout.Has s ∧ s.Holds place ∧ Erased past s) :
    Permitted layout base stop length past (writeCommand address size) := by
  have hfirst : addressOf (writeCommand address size) = address.toNat :=
    addressOf_writeCommand (by omega) size
  have hlength := lengthOf_writeCommand address hsize'
  refine ⟨fun _ => hinvalidated, fun h' => ?_, fun _ => ?_⟩
  · exact absurd ((programs_writeCommand address size).symm.trans h') (by decide)
  · rw [hfirst, hlength]
    exact ⟨haddress, hstop, herased⟩

/-! ## Invalidating, erasing and writing -/

theorem ensures_receivePacket {allowed : List Step → Report → Prop}
    {post : List Step → UInt8 × List UInt8 → Prop} {timeout : Nat}
    (h : ∀ code body, post (past ++ [.read timeout (.ok (code :: body))]) (code, body)) :
    (receivePacket timeout).Ensures allowed post past := by
  apply ensures_bind
  apply ensures_receive
  intro report
  cases report with
  | nil => exact ensures_throw _
  | cons code body => exact ensures_pure (h code body)

theorem ensures_invalidateConfig {allowed : List Step → Report → Prop}
    (hallowed : allowed past invalidation) :
    invalidateConfig.Ensures allowed
      (fun later _ => Invalidated later ∧ programmed later = programmed past) past := by
  rw [invalidateConfig, writeSpace]
  apply ensures_bind
  apply ensures_send hallowed
  apply ensures_bind
  apply ensures_receivePacket
  intro code body
  cases body with
  | nil => exact ensures_throw _
  | cons answered rest =>
    simp only []
    split
    · exact ensures_throw _
    · rename_i hanswer
      obtain ⟨hkind, rfl⟩ : kind code = done ∧ answered = 0x02 := by
        simpa only [ne_eq, not_or, Decidable.not_not] using hanswer
      apply ensures_pure
      refine ⟨⟨promptWait, code, rest, hkind, infix_snoc_snoc past _ _⟩, ?_⟩
      rw [programmed_read, programmed_wrote (by decide)]

/-- Erasing sectors is permitted behind an invalidation, and each is erased afterwards. -/
theorem ensures_eraseSectors (total : Nat) {chosen : List Sector}
    (hchosen : ∀ s ∈ chosen, layout.Has s ∧ s.Overlaps base length ∧ s.first.toNat < 0x1000000)
    (hinvalidated : Invalidated past) (erased : Nat) :
    (eraseSectors total chosen erased).Ensures (Permitted layout base stop length)
      (fun later _ => programmed later = programmed past ∧ ∀ s ∈ chosen, Erased later s) past := by
  induction chosen generalizing past erased with
  | nil =>
    rw [eraseSectors]
    exact ensures_pure ⟨rfl, by simp⟩
  | cons t rest ih =>
    obtain ⟨ht, hoverlaps, haddress⟩ := hchosen t (by simp)
    rw [eraseSectors, eraseCommand_eq]
    apply ensures_bind
    apply ensures_send (permitted_erase hinvalidated ht hoverlaps haddress)
    apply ensures_bind
    apply ensures_receivePacket
    intro code body
    apply ensures_bind
    apply ensures_notify
    obtain ⟨now, hnow⟩ : ∃ now, past ++ [.wrote (erasing t.first) (.ok ())] ++
        [.read flashWait (.ok (code :: body))] ++
        [.told (.progress .eraseFlash (erased + 1) total)] = now := ⟨_, rfl⟩
    have hlater : past <+: now :=
      hnow ▸ prefix_snoc (prefix_snoc (prefix_snoc (List.prefix_refl past) _) _) _
    have hcount : programmed now = programmed past := by
      rw [← hnow, programmed_told, programmed_read, programmed_wrote]
      exact fun h' => absurd ((erases_erasing t.first).symm.trans h') (by decide)
    have hanswered : Erased now t :=
      ⟨flashWait, code :: body, by simp,
        hnow ▸ (infix_snoc_snoc past _ _).trans (List.prefix_append _ _).isInfix⟩
    rw [hnow]
    apply (ih (fun s hs => hchosen s (by simp [hs])) (hinvalidated.mono hlater) (erased + 1)).weaken
    intro later hnext _ ⟨hsame, hrest⟩
    refine ⟨hsame.trans hcount, fun s hs => ?_⟩
    rcases List.mem_cons.1 hs with rfl | hs
    · exact hanswered.mono hnext
    · exact hrest s hs

theorem ensures_eraseFlash (address count : UInt32) (stop : Nat) (hlayout : layout.Addressable)
    (hinvalidated : Invalidated past) :
    (eraseFlash address count layout).Ensures (Permitted layout address.toNat stop count.toNat)
      (fun later _ => programmed later = programmed past ∧
        ∀ s, layout.Has s → s.Overlaps address.toNat count.toNat → Erased later s) past := by
  rw [eraseFlash]
  apply ensures_bind
  apply ensures_ofChecked
  intro chosen hchosen
  have hmem := fun s => SectorLayout.mem_overlapping (s := s) hlayout.fits hchosen
  apply (ensures_eraseSectors _ _ hinvalidated 0).weaken
  · intro later _ _ ⟨hsame, herased⟩
    exact ⟨hsame, fun s hs hoverlaps => herased s ((hmem s).2 ⟨hs, hoverlaps⟩)⟩
  · intro s hs
    obtain ⟨hhas, hoverlaps⟩ := (hmem s).1 hs
    exact ⟨hhas, hoverlaps, hlayout.first_lt hhas⟩

/-! ## Writing -/

theorem fills_of_mem_blockReports {f : Framing} (hf : f.Lawful) {data : List UInt8} {report : Report}
    (h : report ∈ blockReports f.blocks data) : Fills report := by
  by_cases hdata : data = []
  · rw [hdata, blockReports_nil] at h
    exact nomatch h
  · obtain ⟨b, hb, hpos, hle, heq⟩ := hf.exists_blockReports_eq hdata
    rw [heq] at h
    rcases List.mem_cons.1 h with rfl | h
    · exact hf.kind_block b hb
    · exact fills_of_mem_blockReports hf h
termination_by data.length
decreasing_by
  rw [List.length_drop]
  omega

theorem ensures_sendAll {reports : List Report} (hreports : ∀ report ∈ reports, Fills report)
    (hinvalidated : Invalidated past) :
    (sendAll reports).Ensures (Permitted layout base stop length)
      (fun later _ => programmed later = programmed past) past := by
  induction reports generalizing past with
  | nil => exact ensures_pure rfl
  | cons report rest ih =>
    have hfills := hreports report (by simp)
    have hlater := List.prefix_append past [Step.wrote report (.ok ())]
    have hcount : programmed (past ++ [.wrote report (.ok ())]) = programmed past :=
      programmed_wrote (fun h' => absurd (hfills.symm.trans h') (by decide)) _ _
    rw [sendAll]
    apply ensures_bind
    apply ensures_send (permitted_of_fills hinvalidated hfills)
    apply (ih (fun other hother => hreports other (by simp [hother]))
      (hinvalidated.mono hlater)).weaken
    exact fun later _ _ hsame => hsame.trans hcount

/-- Writing chunks is permitted where the whole range has been erased. What has been announced so far
is the offset of the next chunk. -/
theorem ensures_writeChunks {f : Framing} (hf : f.Lawful) {address : UInt32} (total : Nat)
    (hstop : address.toNat + length ≤ stop) (hstop' : stop ≤ 0x1000000)
    {pieces : List (List UInt8)} (hpieces : ∀ p ∈ pieces, p ≠ [] ∧ p.length ≤ 1024)
    (hinvalidated : Invalidated past)
    (herased : ∀ place, address.toNat ≤ place → place < address.toNat + length →
      ∃ s, layout.Has s ∧ s.Holds place ∧ Erased past s)
    (hlength : programmed past + pieces.flatten.length = length) :
    (writeChunks f address total pieces (programmed past)).Ensures
      (Permitted layout address.toNat stop length) (fun _ _ => True) past := by
  induction pieces generalizing past with
  | nil => exact ensures_pure trivial
  | cons piece rest ih =>
    obtain ⟨hpiece, hshort⟩ := hpieces piece (by simp)
    have hpos : 0 < piece.length := List.length_pos_iff.2 hpiece
    rw [List.flatten_cons, List.length_append] at hlength
    rw [writeChunks]
    apply ensures_bind
    apply ensures_ofChecked
    intro start hstart
    have hoffset : (UInt32.ofNat (programmed past)).toNat = programmed past :=
      Nat.mod_eq_of_lt (by omega)
    have hstart' := checkedSum_eq_some hstart
    rw [hoffset] at hstart'
    apply ensures_bind
    apply ensures_send
    · apply permitted_write hinvalidated hstart' hpos (by omega) (by omega) hstop'
      exact fun place hlow hhigh => herased place (by omega) (by omega)
    -- the steps up to the command, then those up to the end of the chunk, are behind the invalidation
    -- and the erasures, which the rest of the chunks still needs
    obtain ⟨now, hnow⟩ : ∃ now, past ++ [Step.wrote (writeCommand start piece.length) (.ok ())] = now :=
      ⟨_, rfl⟩
    have hlater : past <+: now := hnow ▸ List.prefix_append past _
    have hcount : programmed now = programmed past + piece.length :=
      hnow ▸ programmed_writeCommand start (by omega) _ past
    rw [hnow]
    apply ensures_bind
    apply (ensures_sendAll (fun _ h => fills_of_mem_blockReports hf h)
      (hinvalidated.mono hlater)).weaken
    · intro filled hfilled _ hsame
      apply ensures_bind
      apply ensures_send (permitted_of_not_alters (by decide))
      apply ensures_bind
      apply ensures_receivePacket
      intro code body
      simp only []
      split
      · exact ensures_bind (ensures_throw _)
      apply ensures_bind
      apply ensures_notify
      obtain ⟨next, hnext⟩ : ∃ next, filled ++ [.wrote writeDone (.ok ())] ++
          [.read flashWait (.ok (code :: body))] ++
          [.told (.progress .writeFlash (programmed past + piece.length) total)] = next := ⟨_, rfl⟩
      have hlater' : past <+: next :=
        hnext ▸ prefix_snoc (prefix_snoc (prefix_snoc (hlater.trans hfilled) _) _) _
      have hcount' : programmed next = programmed past + piece.length := by
        rw [← hnext, programmed_told, programmed_read, programmed_wrote (by decide), hsame, hcount]
      rw [hnext, ← hcount']
      apply ih (fun p hp => hpieces p (by simp [hp])) (hinvalidated.mono hlater') _ (by omega)
      intro place hlow hhigh
      obtain ⟨s, hs, hholds, hwas⟩ := herased place hlow hhigh
      exact ⟨s, hs, hholds, hwas.mono hlater'⟩

theorem ensures_write (c : Classic) {address : UInt32} {data : List UInt8}
    (hstop : address.toNat + data.length ≤ stop) (hstop' : stop ≤ 0x1000000)
    (hinvalidated : Invalidated past) (hnone : programmed past = 0)
    (herased : ∀ place, address.toNat ≤ place → place < address.toNat + data.length →
      ∃ s, layout.Has s ∧ s.Holds place ∧ Erased past s) :
    (c.write address data).Ensures (Permitted layout address.toNat stop data.length)
      (fun _ _ => True) past := by
  cases hgeometry : c.geometry with
  | none =>
    simp only [Classic.write, Classic.framing, Classic.known, hgeometry]
    exact ensures_bind (ensures_bind (ensures_throw _))
  | some g =>
    simp only [Classic.write, Classic.framing, Classic.known, hgeometry, pure_bind]
    have hf := lawful_ofProtocol g.protocol
    have hpieces : ∀ p ∈ chunks (Framing.ofProtocol g.protocol).writeSize data,
        p ≠ [] ∧ p.length ≤ 1024 := by
      intro p hp
      exact ⟨ne_nil_of_mem_chunks hp,
        Nat.le_trans (length_le_of_mem_chunks hf.writeSize_pos hp) hf.writeSize_le⟩
    have hwrite := ensures_writeChunks hf data.length hstop hstop' hpieces hinvalidated herased
      (by rw [flatten_chunks, hnone, Nat.zero_add])
    rw [hnone] at hwrite
    exact hwrite

end UniversalRemote.Classic
