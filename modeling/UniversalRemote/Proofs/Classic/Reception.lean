import Mathlib.Data.List.Forall2
import UniversalRemote.Proofs.Link.Scripted
import UniversalRemote.Proofs.Classic.RoundTrip
import UniversalRemote.Proofs.Classic.Discipline
/-!
# What a reading of flash takes in

The reports that answer a reading are described here without the host: chunk by chunk, packets in
order and one report that closes the chunk. `read_eq_ok_iff` says that a reading succeeds on exactly
these reports, and with which bytes.
-/

namespace UniversalRemote

theorem chunks_append {size : Nat} {piece rest : List α} (hpiece : 0 < piece.length)
    (hsize : piece.length = min size (piece.length + rest.length)) :
    chunks size (piece ++ rest) = piece :: chunks size rest := by
  obtain ⟨a, tail, rfl⟩ := List.exists_cons_of_length_pos hpiece
  rw [List.cons_append, chunks]
  rw [List.length_cons] at hsize
  by_cases hfull : tail.length + 1 = size
  · have htail : size - 1 = tail.length := by omega
    rw [htail, List.take_left, List.drop_left]
  · obtain rfl : rest = [] := List.eq_nil_of_length_eq_zero (by omega)
    rw [List.append_nil, List.take_of_length_le (by omega), List.drop_of_length_le (by omega)]

theorem ByteOrder.littleBytes_mod (width n : Nat) :
    littleBytes width (n % room width) = littleBytes width n := by
  induction width generalizing n with
  | zero => rfl
  | succ width ih =>
    have hdigit : UInt8.ofNat (n % (256 * room width)) = UInt8.ofNat n := by
      apply UInt8.toNat_inj.1
      simp only [UInt8.toNat_ofNat', Nat.reducePow, Nat.mod_mul_right_mod]
    rw [littleBytes, littleBytes, room, Nat.mod_mul_right_div_self, ih, hdigit]

namespace Classic

open Exchange

/-! ## The answer to a reading -/

/-- A report that carries bytes of flash under a number. -/
def Carries (f : Framing) (number : UInt8) (report : Report) : Prop :=
  ∃ code body, report = code :: number :: body ∧ kind code = 0x60 ∧ f.payload code ≤ body.length

theorem Carries.exists_cons {f : Framing} {number : UInt8} {report : Report}
    (h : Carries f number report) : ∃ code body, report = code :: body := by
  obtain ⟨code, body, rfl, -⟩ := h
  exact ⟨code, _, rfl⟩

def Framing.carried (f : Framing) : Report → List UInt8
  | code :: _ :: body => if kind code = 0x60 then body.take (f.payload code) else []
  | _ => []

/-- The reports that answer the command to send one chunk: numbered packets that carry it, and a
report that closes it. -/
def AnswersChunk (f : Framing) (reports : List Report) (chunk : List UInt8) : Prop :=
  ∃ packets closing, reports = packets ++ [closing] ∧ Commands done closing ∧
    (∀ i packet, packets[i]? = some packet → Carries f (UInt8.ofNat (1 + 17 * i)) packet) ∧
    packets.flatMap f.carried = chunk

/-- The reports that answer the commands to send some data, chunk by chunk. -/
def Answers (f : Framing) (reports : List Report) (data : List UInt8) : Prop :=
  ∃ parts, reports = parts.flatten ∧ List.Forall₂ (AnswersChunk f) parts (chunks f.readSize data)

/-- The commands to send pieces of flash that lie one behind the other from an address on. A command
has room for the low 24 bits of its address. -/
def readCommands : Nat → List (List UInt8) → List Report
  | _, [] => []
  | address, piece :: rest =>
    (0x55 :: ByteOrder.big.bytes 3 (address % 0x1000000) ++ ByteOrder.big.bytes 2 piece.length) ::
      readCommands (address + piece.length) rest

theorem readCommand_eq (address : UInt32) (length : Nat) :
    readCommand address length = 0x55 :: ByteOrder.big.bytes 3 (address.toNat % 0x1000000) ++
      ByteOrder.big.bytes 2 length := by
  have hbytes : ByteOrder.big.bytes 3 (address.toNat % 0x1000000) = addressBytes address :=
    congrArg List.reverse (ByteOrder.littleBytes_mod 3 address.toNat)
  rw [readCommand, hbytes]

/-- Packets with the numbers that follow one another from the given one on. -/
def Numbered (f : Framing) : UInt8 → List Report → Prop
  | _, [] => True
  | number, packet :: rest => Carries f number packet ∧ Numbered f (number + 0x11) rest

theorem numbered_iff {f : Framing} {number : UInt8} {packets : List Report} :
    Numbered f number packets ↔
      ∀ i packet, packets[i]? = some packet → Carries f (number + UInt8.ofNat (17 * i)) packet := by
  induction packets generalizing number with
  | nil => simp [Numbered]
  | cons first rest ih =>
    have hnext : ∀ i, number + 0x11 + UInt8.ofNat (17 * i) = number + UInt8.ofNat (17 * (i + 1)) := by
      intro i
      rw [Nat.mul_add, Nat.add_comm (17 * i), UInt8.ofNat_add, UInt8.add_assoc]
      rfl
    rw [Numbered, ih]
    constructor
    · rintro ⟨hfirst, hrest⟩ i packet hpacket
      cases i with
      | zero =>
        obtain rfl : first = packet := by simpa using hpacket
        simpa using hfirst
      | succ i => exact hnext i ▸ hrest i packet (by simpa using hpacket)
    · intro h
      refine ⟨by simpa using h 0 first rfl, fun i packet hpacket => ?_⟩
      exact hnext i ▸ h (i + 1) packet (by simpa using hpacket)

theorem answersChunk_iff {f : Framing} {reports : List Report} {chunk : List UInt8} :
    AnswersChunk f reports chunk ↔ ∃ packets closing, reports = packets ++ [closing] ∧
      Commands done closing ∧ Numbered f 0x01 packets ∧ packets.flatMap f.carried = chunk := by
  have hnumber : ∀ i, UInt8.ofNat (1 + 17 * i) = 0x01 + UInt8.ofNat (17 * i) :=
    fun i => UInt8.ofNat_add 1 (17 * i)
  simp only [AnswersChunk, numbered_iff, hnumber]

theorem carried_of_done {f : Framing} {code : UInt8} (h : kind code = done) (body : List UInt8) :
    f.carried (code :: body) = [] := by
  have hkind : ¬ kind code = 0x60 := by
    rw [h]
    decide
  cases body with
  | nil => rfl
  | cons number payload => exact if_neg hkind

/-! ## One packet -/

/-- What a packet means for a chunk of which some bytes are there: it closes the chunk, it brings the
next bytes, or it has no place here. -/
def Framing.verdict (f : Framing) (length received : Nat) (number code : UInt8)
    (body : List UInt8) : Except ProtocolError (Option (List UInt8)) :=
  if kind code = done then
    if received = length then .ok none else .error (.lengthMismatch length received)
  else if kind code ≠ 0x60 then .error (.unexpectedResponse code "reading flash")
  else
    match body with
    | [] => .error (.shortPacket 2 1)
    | actual :: payload =>
      let size := f.payload code
      if actual ≠ number then .error (.sequenceMismatch number actual)
      else if payload.length < size then .error (.shortPacket (2 + size) (2 + payload.length))
      else if length < received + size then .error (.lengthMismatch length (received + size))
      else .ok (some (payload.take size))

section Verdict

variable {f : Framing} {length received : Nat} {number code : UInt8} {body bytes : List UInt8}

theorem verdict_eq_none_iff :
    f.verdict length received number code body = .ok none ↔ kind code = done ∧ received = length := by
  unfold Framing.verdict
  grind

theorem verdict_eq_some_iff :
    f.verdict length received number code body = .ok (some bytes) ↔
      Carries f number (code :: body) ∧ f.carried (code :: body) = bytes ∧
        received + bytes.length ≤ length := by
  have hdone : (0x60 : UInt8) ≠ done := by decide
  unfold Framing.verdict Carries
  cases body with
  | nil => grind
  | cons actual payload => grind [Framing.carried]

/-- Whatever is done with the bytes, the packets of a chunk are taken in by what they mean for it. -/
theorem receiveChunk_succ (absorb : σ → Nat → List UInt8 → Exchange RemoteError σ)
    (offset patience : Nat) (state : σ) :
    receiveChunk f absorb offset length (patience + 1) (Sequence.eightBit number 0x11) received
        state = (do
      let packet ← receivePacket promptWait
      let bytes? ← check (f.verdict length received number packet.1 packet.2)
      bytes?.elim (pure state) fun bytes => do
        let state ← absorb state (offset + received) bytes
        receiveChunk f absorb offset length patience (Sequence.eightBit (number + 0x11) 0x11)
          (received + bytes.length) state) := by
  rw [receiveChunk]
  congr 1
  funext packet
  obtain ⟨code, body⟩ := packet
  unfold Framing.verdict
  by_cases hdone : kind code = done
  · by_cases hlength : received = length
    · simp only [if_pos hdone, if_pos hlength]
      rfl
    · simp only [if_pos hdone, if_neg hlength]
      rfl
  by_cases hkind : kind code = 0x60
  swap
  · simp only [if_neg hdone, if_pos hkind]
    rfl
  simp only [if_neg hdone, if_neg (not_not_intro hkind)]
  cases body with
  | nil => rfl
  | cons actual payload =>
    by_cases hactual : actual = number
    swap
    · have haccept : (Sequence.eightBit number 0x11).accept actual =
          .error (.sequenceMismatch number actual) := Sequence.accept_of_ne hactual
      simp only [haccept, if_pos hactual]
      rfl
    have haccept : (Sequence.eightBit number 0x11).accept actual =
        .ok (Sequence.eightBit (number + 0x11) 0x11) :=
      Sequence.accept_eq_ok_iff.2 ⟨hactual, Simulated.advance_eightBit number 0x11⟩
    simp only [haccept, if_neg (not_not_intro hactual)]
    by_cases hlong : payload.length < f.payload code
    · simp only [check, pure_bind, if_pos hlong]
      rfl
    by_cases hfits : length < received + f.payload code
    · simp only [check, pure_bind, if_neg hlong, if_pos hfits]
      rfl
    simp only [check, pure_bind, if_neg hlong, if_neg hfits, Option.elim,
      List.length_take_of_le (Nat.le_of_not_lt hlong)]

end Verdict

/-! ## Whatever the device does -/

section Ensures

variable {f : Framing}

/-- A chunk that is taken in has come in numbered packets that make it up. -/
theorem ensures_receiveChunk (offset length patience : Nat) (number : UInt8) (received : Nat)
    (kept : List (List UInt8)) (past : List Step) :
    (receiveChunk f keep offset length patience (Sequence.eightBit number 0x11) received kept).Ensures
      (fun _ _ => True) (fun later kept' => ∃ packets closing,
        later.filterMap Step.written? = past.filterMap Step.written? ∧
        later.filterMap Step.answer? =
          past.filterMap Step.answer? ++ (packets ++ [closing]).map .ok ∧
        Commands done closing ∧ Numbered f number packets ∧
        kept'.reverse.flatten = kept.reverse.flatten ++ packets.flatMap f.carried ∧
        received + (packets.flatMap f.carried).length = length) past := by
  induction patience generalizing past number received kept with
  | zero => exact ensures_throw _
  | succ patience ih =>
    rw [receiveChunk_succ]
    apply ensures_bind
    apply ensures_receivePacket
    intro code body
    apply ensures_bind
    apply ensures_check
    intro bytes? hverdict
    cases bytes? with
    | none =>
      obtain ⟨hclosing, hreceived⟩ := verdict_eq_none_iff.1 hverdict
      exact ensures_pure ⟨[], code :: body, by simp, by simp, hclosing, trivial, by simp, hreceived⟩
    | some bytes =>
      obtain ⟨hpacket, hcarried, -⟩ := verdict_eq_some_iff.1 hverdict
      apply (ih (number + 0x11) (received + bytes.length) (bytes :: kept) _).weaken
      rintro later - kept' ⟨packets, closing, hwritten, hanswers, hclosing, hnumbered, hkept, hlength⟩
      refine ⟨(code :: body) :: packets, closing, ?_, ?_, hclosing, ⟨hpacket, hnumbered⟩, ?_, ?_⟩
      · simpa [List.filterMap_cons] using hwritten
      · simpa [List.filterMap_cons] using hanswers
      · simpa [hcarried] using hkept
      · rw [List.flatMap_cons, hcarried, List.length_append]
        omega

/-- Chunks that are taken in have answered the commands to send them, one after another. -/
theorem ensures_transferChunks (hf : f.Lawful) {address : UInt32} {total : Nat}
    (hbound : address.toNat + total ≤ 0x100000000) (stage : Stage) (patience count : Nat) :
    ∀ (offset : Nat) (kept : List (List UInt8)) (past : List Step), offset ≤ total →
      total - offset ≤ count * f.readSize → count * f.readSize < total - offset + f.readSize →
      (transferChunks f keep stage patience address total count offset kept).Ensures
        (fun _ _ => True)
        (fun later kept' => ∃ reports data, Answers f reports data ∧ offset + data.length = total ∧
          later.filterMap Step.written? = past.filterMap Step.written? ++
            readCommands (address.toNat + offset) (chunks f.readSize data) ∧
          later.filterMap Step.answer? = past.filterMap Step.answer? ++ reports.map .ok ∧
          kept'.reverse.flatten = kept.reverse.flatten ++ data) past := by
  induction count with
  | zero =>
    intro offset kept past hoffset hmost _
    exact ensures_pure ⟨[], [], ⟨[], rfl, by simp [chunks]⟩, by simp; omega,
      by simp [chunks, readCommands], by simp, by simp⟩
  | succ count ih =>
    intro offset kept past hoffset hmost hleast
    rw [Nat.succ_mul] at hmost hleast
    have hread := hf.readSize_pos
    obtain ⟨size, hsize⟩ : ∃ size, min (total - offset) f.readSize = size := ⟨_, rfl⟩
    rw [transferChunks, hsize]
    apply ensures_bind
    apply ensures_ofChecked
    intro start hstart
    have hstart' : start.toNat = address.toNat + offset := by
      have hplace : (UInt32.ofNat offset).toNat = offset := Nat.mod_eq_of_lt (by omega)
      rw [checkedSum_eq_some hstart, hplace]
    apply ensures_bind
    apply ensures_send trivial
    apply ensures_bind
    apply (ensures_receiveChunk offset size patience 0x01 0 kept _).weaken
    rintro middle - kept' ⟨packets, closing, hwritten, hanswers, hclosing, hnumbered, hkept, hlength⟩
    apply ensures_bind
    apply ensures_notify
    apply (ih (offset + size) kept' _ (by omega) (by omega) (by omega)).weaken
    rintro later - kept'' ⟨reports, data, ⟨parts, rfl, hparts⟩, htotal, hwritten', hanswers', hkept'⟩
    obtain ⟨chunk, hchunk⟩ : ∃ chunk, packets.flatMap f.carried = chunk := ⟨_, rfl⟩
    rw [hchunk] at hkept hlength
    have hcut : chunks f.readSize (chunk ++ data) = chunk :: chunks f.readSize data :=
      chunks_append (by omega) (by omega)
    have hpart : AnswersChunk f (packets ++ [closing]) chunk :=
      answersChunk_iff.2 ⟨packets, closing, rfl, hclosing, hnumbered, hchunk⟩
    refine ⟨(packets ++ [closing]) ++ parts.flatten, chunk ++ data,
      ⟨(packets ++ [closing]) :: parts, rfl, hcut ▸ .cons hpart hparts⟩, ?_, ?_, ?_, ?_⟩
    · rw [List.length_append]
      omega
    · rw [hwritten', List.filterMap_append, hwritten, hcut, readCommands, ← hstart', ← readCommand_eq]
      have hlength' : chunk.length = size := by omega
      simp [List.filterMap_cons, hlength', hstart', Nat.add_assoc]
    · rw [hanswers', List.filterMap_append, hanswers]
      simp [List.filterMap_cons]
    · rw [hkept', hkept, List.append_assoc]

/-- Flash that is read has come in answers to the commands to send it. -/
theorem ensures_readFlash (hf : f.Lawful) {address : UInt32} {length : Nat}
    (hbound : address.toNat + length ≤ 0x100000000) (patience : Nat) (past : List Step) :
    (readFlash f patience address length).Ensures (fun _ _ => True)
      (fun later data => ∃ reports, Answers f reports data ∧ data.length = length ∧
        later.filterMap Step.written? = past.filterMap Step.written? ++
          readCommands address.toNat (chunks f.readSize data) ∧
        later.filterMap Step.answer? = past.filterMap Step.answer? ++ reports.map .ok) past := by
  have hcount := hf.count_bounds length
  rw [readFlash, transfer]
  apply ensures_bind
  apply (ensures_transferChunks hf hbound .readFlash patience _ 0 [] past (by omega)
    (by omega) (by omega)).weaken
  rintro later - kept ⟨reports, data, hanswers, hlength, hwritten, hreceived, hkept⟩
  have hdata : kept.reverse.flatten = data := by simpa using hkept
  apply ensures_pure
  rw [hdata]
  exact ⟨reports, hanswers, by omega, hwritten, hreceived⟩

end Ensures

/-! ## From a script -/

section Script

variable {f : Framing}

theorem ending_receivePacket_script {s : Script} {code : UInt8} {body : List UInt8}
    {rest : List ScriptedRead} (h : s.reads = .report (code :: body) :: rest) (timeout : Nat) :
    (receivePacket timeout).ending Script.device s = (.ok (code, body), { s with reads := rest }) := by
  have hreceive : (receive timeout).ending Script.device s =
      (.ok (code :: body), { s with reads := rest }) := by
    rw [ending_receive]
    simp only [Script.device, Script.read, h]
    rfl
  rw [receivePacket, ending_bind_ok hreceive, ending_pure]

theorem exists_cons_of_commands_done {closing : Report} (h : Commands done closing) :
    ∃ code body, closing = code :: body ∧ kind code = done := by
  cases closing with
  | nil => exact absurd h (by decide)
  | cons code body => exact ⟨code, body, rfl, h⟩

/-- Numbered packets that make up a chunk, and a report that closes it, are taken in. -/
theorem ending_receiveChunk_script (offset length : Nat) {packets : List Report} {closing : Report}
    (hclosing : Commands done closing) {rest : List ScriptedRead} (patience : Nat) :
    ∀ (number : UInt8) (received : Nat) (kept : List (List UInt8)) (s : Script),
      s.reads = (packets ++ [closing]).map .report ++ rest → Numbered f number packets →
      received + (packets.flatMap f.carried).length = length → packets.length < patience →
      ∃ kept', kept'.reverse.flatten = kept.reverse.flatten ++ packets.flatMap f.carried ∧
        (receiveChunk f keep offset length patience (Sequence.eightBit number 0x11) received kept).ending
          Script.device s = (.ok kept', { s with reads := rest }) := by
  induction packets generalizing patience with
  | nil =>
    intro number received kept s hreads _ hlength hpatience
    obtain ⟨patience, rfl⟩ : ∃ p, patience = p + 1 := ⟨patience - 1, by omega⟩
    obtain ⟨code, body, rfl, hkind⟩ := exists_cons_of_commands_done hclosing
    have hreceived : received = length := by simpa using hlength
    refine ⟨kept, by simp, ?_⟩
    rw [receiveChunk_succ, ending_bind_ok (ending_receivePacket_script hreads _)]
    simp only [verdict_eq_none_iff.2 ⟨hkind, hreceived⟩]
    rfl
  | cons packet packets ih =>
    intro number received kept s hreads hnumbered hlength hpatience
    obtain ⟨patience, rfl⟩ : ∃ p, patience = p + 1 :=
      ⟨patience - 1, by rw [List.length_cons] at hpatience; omega⟩
    obtain ⟨hcarries, hrest⟩ := hnumbered
    obtain ⟨code, body, rfl⟩ := hcarries.exists_cons
    obtain ⟨bytes, hcarried⟩ : ∃ bytes, f.carried (code :: body) = bytes := ⟨_, rfl⟩
    rw [List.flatMap_cons, hcarried, List.length_append] at hlength
    obtain ⟨kept', hkept, hending⟩ := ih patience (number + 0x11) (received + bytes.length)
      (bytes :: kept) { s with reads := (packets ++ [closing]).map .report ++ rest } rfl hrest
      (by omega) (Nat.lt_of_succ_lt_succ hpatience)
    have hverdict : f.verdict length received number code body = .ok (some bytes) :=
      verdict_eq_some_iff.2 ⟨hcarries, hcarried, by omega⟩
    refine ⟨kept', by simpa [hcarried] using hkept, ?_⟩
    rw [receiveChunk_succ, ending_bind_ok (ending_receivePacket_script hreads _)]
    simp only [hverdict]
    exact hending

/-- Answers to the commands for some data are taken in, where the link takes the commands. -/
theorem ending_transferChunks_script (hf : f.Lawful) {address : UInt32} {total : Nat}
    (hbound : address.toNat + total ≤ 0x100000000) (stage : Stage) {patience : Nat}
    {rest : List ScriptedRead} (count : Nat) :
    ∀ (offset : Nat) (reports : List Report) (data : List UInt8) (kept : List (List UInt8))
      (s : Script), s.reads = reports.map .report ++ rest → Answers f reports data →
      (∀ n, s.failures n = none) → reports.length < patience → offset + data.length = total →
      data.length ≤ count * f.readSize → count * f.readSize < data.length + f.readSize →
      ∃ kept' writes, kept'.reverse.flatten = kept.reverse.flatten ++ data ∧
        (transferChunks f keep stage patience address total count offset kept).ending Script.device s =
          (.ok kept', ⟨rest, writes, s.failures⟩) := by
  induction count with
  | zero =>
    intro offset reports data kept s hreads ⟨parts, hparts, hanswers⟩ _ _ _ hmost _
    obtain rfl : data = [] := List.eq_nil_of_length_eq_zero (by omega)
    obtain rfl : parts = [] := by simpa [chunks] using hanswers
    obtain rfl : s.reads = rest := by simpa [hparts] using hreads
    exact ⟨kept, s.writes, by simp, ending_pure _⟩
  | succ count ih =>
    intro offset reports data kept s hreads ⟨parts, hparts, hanswers⟩ hwrites hpatience htotal hmost
      hleast
    rw [Nat.succ_mul] at hmost hleast
    have hread := hf.readSize_pos
    obtain ⟨chunk, hchunk⟩ : ∃ chunk, data.take f.readSize = chunk := ⟨_, rfl⟩
    obtain ⟨others, hothers⟩ : ∃ others, data.drop f.readSize = others := ⟨_, rfl⟩
    have hsplit : chunk ++ others = data := by rw [← hchunk, ← hothers, List.take_append_drop]
    have hsize : chunk.length = min data.length f.readSize := by
      rw [← hchunk, List.length_take, Nat.min_comm]
    have hlength : chunk.length + others.length = data.length := by
      rw [← hsplit, List.length_append]
    have hcut : chunks f.readSize data = chunk :: chunks f.readSize others := by
      rw [← hsplit]
      exact chunks_append (by omega) (by omega)
    rw [hcut] at hanswers
    obtain ⟨part, parts, hpart, hothersAnswers, rfl⟩ := List.forall₂_cons_right_iff.1 hanswers
    obtain ⟨packets, closing, rfl, hclosing, hnumbered, hcarried⟩ := answersChunk_iff.1 hpart
    rw [hparts, List.flatten_cons] at hreads hpatience
    simp only [List.length_append, List.length_cons, List.length_nil] at hpatience
    obtain ⟨start, hstart, -⟩ := exists_checkedSum (a := address) (n := offset) (by omega)
    have hsend : ∀ report, (send report).ending Script.device s =
        (.ok (), { s with writes := s.writes + 1 }) := by
      intro report
      rw [ending_send]
      simp only [Script.device, Script.write, hwrites]
      rfl
    have hchunkReads : s.reads =
        (packets ++ [closing]).map .report ++ (parts.flatten.map .report ++ rest) := by
      rw [hreads, List.map_append, List.append_assoc]
    obtain ⟨kept', hkept', hreceive⟩ := ending_receiveChunk_script offset chunk.length hclosing
      patience 0x01 0 kept { s with writes := s.writes + 1 } hchunkReads hnumbered
      (by rw [hcarried, Nat.zero_add]) (by omega)
    obtain ⟨kept'', writes, hkept'', htransfer⟩ := ih (offset + chunk.length) parts.flatten others kept'
      ⟨parts.flatten.map .report ++ rest, s.writes + 1, s.failures⟩ rfl ⟨parts, rfl, hothersAnswers⟩
      hwrites (by omega) (by omega) (by omega) (by omega)
    refine ⟨kept'', writes, ?_, ?_⟩
    · rw [hkept'', hkept', hcarried, List.append_assoc, hsplit]
    · rw [transferChunks, show min (total - offset) f.readSize = chunk.length by omega,
        ending_bind_ok (ending_ofChecked_some hstart), ending_bind_ok (hsend _), flashSequence,
        ending_bind_ok hreceive, ending_bind_ok (ending_progress _ _ _), htransfer]

theorem ending_readFlash_script (hf : f.Lawful) {address : UInt32} {data : List UInt8}
    (hbound : address.toNat + data.length ≤ 0x100000000) {patience : Nat} {reports : List Report}
    {rest : List ScriptedRead} {s : Script} (hreads : s.reads = reports.map .report ++ rest)
    (hanswers : Answers f reports data) (hwrites : ∀ n, s.failures n = none)
    (hpatience : reports.length < patience) :
    ∃ writes, (readFlash f patience address data.length).ending Script.device s =
      (.ok data, ⟨rest, writes, s.failures⟩) := by
  have hcount := hf.count_bounds data.length
  obtain ⟨kept, writes, hkept, htransfer⟩ := ending_transferChunks_script hf hbound .readFlash
    ((data.length + f.readSize - 1) / f.readSize) 0 reports data [] s hreads hanswers hwrites hpatience
    (by omega) hcount.1 hcount.2
  have hdata : kept.reverse.flatten = data := by simpa using hkept
  refine ⟨writes, ?_⟩
  rw [readFlash, transfer, ending_bind_ok htransfer, hdata, ending_pure]

end Script

/-- A reading succeeds with some data exactly if the script begins with reports that answer the
commands for this data. Those are the reports that it takes, and it writes the commands. The host
needs no more patience than for the reports that there are. -/
theorem read_eq_ok_iff {c : Classic} {g : Geometry} (hgeometry : c.geometry = some g)
    (address : UInt32) (length : Nat) (hbound : address.toNat + length ≤ 0x100000000) (s : Script)
    (hwrites : ∀ n, s.failures n = none) (hpatience : s.reads.length < c.patience)
    (data : List UInt8) :
    let f := Framing.ofProtocol g.protocol
    let run := (c.read address length).run.run Script.device s
    (run.result = .ok data ↔ data.length = length ∧
      ∃ reports rest, s.reads = reports.map .report ++ rest ∧ Answers f reports data) ∧
    (run.result = .ok data → ∃ reports, s.reads = reports.map .report ++ run.state.reads ∧
      Answers f reports data ∧
      run.trace.filterMap Step.written? = readCommands address.toNat (chunks f.readSize data)) := by
  intro f run
  have hf : f.Lawful := lawful_ofProtocol g.protocol
  have hread : c.read address length = readFlash f c.patience address length :=
    Simulated.read_eq hgeometry address length
  have hsound : run.result = .ok data → ∃ reports, Answers f reports data ∧ data.length = length ∧
      run.trace.filterMap Step.written? = readCommands address.toNat (chunks f.readSize data) ∧
      run.trace.filterMap Step.answer? = reports.map .ok := by
    have hensures := ensures_readFlash hf hbound c.patience []
    rw [← hread] at hensures
    exact (Program.Ensures.run hensures Script.device s).1 data
  refine ⟨⟨fun hok => ?_, fun ⟨hlength, reports, rest, hreads, hanswers⟩ => ?_⟩, fun hok => ?_⟩
  · obtain ⟨reports, hanswers, hlength, -, hreceived⟩ := hsound hok
    exact ⟨hlength, reports, run.state.reads, Script.reads_of_run _ s hreceived, hanswers⟩
  · subst hlength
    have hfew : reports.length < c.patience := by
      rw [hreads, List.length_append, List.length_map] at hpatience
      omega
    obtain ⟨writes, hending⟩ := ending_readFlash_script hf hbound hreads hanswers hwrites hfew
    have hresult : run.result = ((c.read address data.length).ending Script.device s).1 := rfl
    rw [hresult, hread, hending]
  · obtain ⟨reports, hanswers, -, hwritten, hreceived⟩ := hsound hok
    exact ⟨reports, Script.reads_of_run _ s hreceived, hanswers, hwritten⟩

/-- Three bytes in three packets, one of them empty, in front of a report that is not taken. -/
theorem read_eq_ok_three_packets :
    let c : Classic := ⟨100, some ⟨1, 3⟩⟩
    let s : Script := { reads := [.report [0x63, 0x01, 0xAA, 0xBB], .report [0x60, 0x12],
      .report [0x62, 0x23, 0xCC, 0x00], .report [0xF1], .report [0x99]] }
    ((c.read 0x20000 3).run.run Script.device s).result = .ok [0xAA, 0xBB, 0xCC] := by
  intro c s
  refine (read_eq_ok_iff (c := c) (g := ⟨1, 3⟩) rfl 0x20000 3 (by decide) s (fun _ => rfl) (by decide)
    [0xAA, 0xBB, 0xCC]).1.2 ⟨rfl, [[0x63, 0x01, 0xAA, 0xBB], [0x60, 0x12], [0x62, 0x23, 0xCC, 0x00],
      [0xF1]], [.report [0x99]], rfl, ?_⟩
  have hcut : chunks 1024 [(0xAA : UInt8), 0xBB, 0xCC] = [[0xAA, 0xBB, 0xCC]] := by simp [chunks]
  refine ⟨[_], (List.append_nil _).symm, hcut ▸ .cons (answersChunk_iff.2 ?_) .nil⟩
  refine ⟨[[0x63, 0x01, 0xAA, 0xBB], [0x60, 0x12], [0x62, 0x23, 0xCC, 0x00]], [0xF1], rfl, by decide,
    ⟨?_, ?_, ?_, trivial⟩, by decide⟩
  · exact ⟨0x63, _, rfl, by decide, by decide⟩
  · exact ⟨0x60, _, rfl, by decide, by decide⟩
  · exact ⟨0x62, _, rfl, by decide, by decide⟩

end Classic

end UniversalRemote
