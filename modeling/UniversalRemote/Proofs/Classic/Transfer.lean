import UniversalRemote.Proofs.Classic.Framing
/-!
# Transfers to and from a simulated remote

What erasing, writing and reading do to a simulated remote. Each loop of the host has one lemma, by
induction along its recursion:
* `ending_eraseSectors`, `ending_writeChunks`: the memory afterwards;
* `ending_receiveChunk`, `ending_transferChunks`: what the host makes of the packets, whatever it
  does with their payloads.
-/

namespace UniversalRemote.Classic.Simulated

open Exchange

variable {r : Simulated}

/-! ## State memory -/

theorem ending_readBytes (m : Memory) (cursor : Nat) (space address : UInt8) (count : Nat) :
    ∃ values, (readBytes space address count).ending r.device ⟨m, cursor, []⟩ =
      (.ok values, ⟨m, cursor, []⟩) := by
  induction count generalizing address with
  | zero => exact ⟨[], ending_pure _⟩
  | succ count ih =>
    obtain ⟨values, hvalues⟩ := ih (address + 1)
    refine ⟨m address.toNat :: values, ?_⟩
    rw [readBytes, r.ending_ask _ _ (r.obey_readSpace m cursor space address)]
    simp only [ne_eq, not_true_eq_false, or_self, if_false]
    rw [ending_bind_ok hvalues, ending_pure]

theorem ending_invalidateConfig (m : Memory) (cursor : Nat) :
    invalidateConfig.ending r.device ⟨m, cursor, []⟩ = (.ok (), ⟨m, cursor, []⟩) := by
  have hkind : kind 0xF0 = done := rfl
  rw [invalidateConfig, writeSpace, r.ending_ask _ _ (r.obey_writeSpace m cursor 0x02 [])]
  simp only [hkind, ne_eq, not_true_eq_false, or_self, if_false, ending_pure]

/-! ## Erasing -/

theorem ending_eraseSectors {sectors : List Sector} {start stop : Nat}
    (hsectors : r.layout.sectors = some sectors) (htiles : Tiles start sectors stop)
    (hstop : stop ≤ 0x1000000) (m : Memory) (cursor total : Nat) (chosen : List Sector)
    (hchosen : ∀ t ∈ chosen, t ∈ sectors) (erased : Nat) :
    (eraseSectors total chosen erased).ending r.device ⟨m, cursor, []⟩ =
      (.ok (), ⟨m.erase chosen, cursor, []⟩) := by
  induction chosen generalizing m erased with
  | nil => rw [eraseSectors, Memory.erase_nil, ending_pure]
  | cons t rest ih =>
    have ht : t ∈ sectors := hchosen t (by simp)
    have hbounds := htiles.bounded ht
    have hobey := r.obey_eraseCommand m cursor hsectors htiles ht (by omega)
    rw [eraseSectors, r.ending_ask _ _ hobey, ending_bind_ok (ending_progress _ _ _),
      ih _ (fun u hu => hchosen u (by simp [hu])), Memory.erase_cons]

/-! ## Writing -/

theorem obey_lawful_block (hf : r.framing.Lawful) {b : UInt8 × Nat} (hb : b ∈ r.framing.blocks)
    {body : List UInt8} (hbody : body.length = b.2) (m : Memory) (cursor : Nat) :
    r.obey ⟨m, cursor, []⟩ ((0x40 ||| b.1) :: body) =
      ⟨m.program cursor body, cursor + body.length, []⟩ := by
  rw [r.obey_block _ (hf.kind_block b hb), takeBlock, hf.find?_block b hb]
  simp only [← hbody, List.take_length]

/-- The blocks of some data program it from the cursor on. -/
theorem ending_sendBlocks (hf : r.framing.Lawful) (m : Memory) (cursor : Nat) (data : List UInt8) :
    (sendAll (blockReports r.framing.blocks data)).ending r.device ⟨m, cursor, []⟩ =
      (.ok (), ⟨m.program cursor data, cursor + data.length, []⟩) := by
  by_cases hdata : data = []
  · rw [hdata, blockReports_nil, Memory.program_nil, sendAll, ending_pure]
    rfl
  · obtain ⟨b, hb, hpos, hle, heq⟩ := hf.exists_blockReports_eq hdata
    have hlength : (data.take b.2).length = b.2 := List.length_take_of_le hle
    rw [heq, sendAll, ending_bind_ok (Device.ending_send _ _), obey_lawful_block hf hb hlength m cursor,
      ending_sendBlocks hf _ _ (data.drop b.2), Memory.program_append, List.take_append_drop,
      Nat.add_assoc, ← List.length_append, List.take_append_drop]
termination_by data.length
decreasing_by
  rw [List.length_drop]
  omega

/-- Chunks of data program it at their address. -/
theorem ending_writeChunks (hf : r.framing.Lawful) (address : UInt32) (m : Memory)
    (cursor total : Nat) (pieces : List (List UInt8)) (hpieces : ∀ p ∈ pieces, p ≠ []) (offset : Nat)
    (hbound : 0 < pieces.flatten.length →
      address.toNat + offset + pieces.flatten.length ≤ 0x1000000) :
    ∃ after, (writeChunks r.framing address total pieces offset).ending r.device ⟨m, cursor, []⟩ =
      (.ok (), ⟨m.program (address.toNat + offset) pieces.flatten, after, []⟩) := by
  induction pieces generalizing m cursor offset with
  | nil =>
    refine ⟨cursor, ?_⟩
    rw [writeChunks, List.flatten_nil, Memory.program_nil, ending_pure]
  | cons piece rest ih =>
    have hpiece : 0 < piece.length := List.length_pos_iff.2 (hpieces piece (by simp))
    rw [List.flatten_cons, List.length_append] at hbound
    have hlast := hbound (by omega)
    obtain ⟨start, hstart, hstart'⟩ := exists_checkedSum (a := address) (n := offset) (by omega)
    obtain ⟨after, hrest⟩ := ih (m.program start.toNat piece) (start.toNat + piece.length)
      (fun p hp => hpieces p (by simp [hp])) (offset + piece.length) (by omega)
    refine ⟨after, ?_⟩
    rw [writeChunks, ending_bind_ok (ending_ofChecked_some hstart), ending_bind_ok (Device.ending_send _ _),
      r.obey_writeCommand m cursor (by omega), ending_bind_ok (ending_sendBlocks hf m _ piece),
      r.ending_ask _ _ (r.obey_writeDone _ _)]
    have hkind : kind 0xF1 = done := rfl
    simp only [hkind, ne_eq, not_true_eq_false, if_false]
    rw [ending_bind_ok (ending_progress _ _ _), hrest, ← Nat.add_assoc, ← hstart',
      Memory.program_append, List.flatten_cons]

theorem ending_writeFlash (hf : r.framing.Lawful) (m : Memory) (cursor : Nat) {address : UInt32}
    {data : List UInt8} (hbound : 0 < data.length → address.toNat + data.length ≤ 0x1000000) :
    ∃ after, (writeFlash r.framing address data).ending r.device ⟨m, cursor, []⟩ =
      (.ok (), ⟨m.program address.toNat data, after, []⟩) := by
  have h := ending_writeChunks hf address m cursor data.length (chunks r.framing.writeSize data)
    (fun _ hp => ne_nil_of_mem_chunks hp) 0 (by rwa [flatten_chunks])
  rwa [flatten_chunks] at h

/-! ## Reading -/

/-- The numbers of the packets of a chunk go up by seventeen. -/
theorem advance_eightBit (number step : UInt8) :
    (Sequence.eightBit number step).advance = Sequence.eightBit (number + step) step :=
  Sequence.skip_eightBit number step step

section Absorb

variable {absorb : σ → Nat → List UInt8 → Exchange RemoteError σ} {Good : Nat → σ → Prop}
  {base total : Nat}

/-- The packets of a chunk reach the host one after another. `Good` says what the host has made of
all bytes before a place, and each payload has to keep it. -/
theorem ending_receiveChunk (hf : r.framing.Lawful) (m : Memory) (cursor : Nat)
    (habsorb : ∀ place st n, Good place st → place + n ≤ total →
      ∃ st', absorb st place (m.slice (base + place) n) = pure st' ∧ Good (place + n) st')
    (offset length : Nat) (htotal : offset + length ≤ total) (left : Nat) :
    ∀ (patience received : Nat) (number : UInt8) (st : σ), received + left = length →
      left < patience → Good (offset + received) st →
      ∃ st', (receiveChunk r.framing absorb offset length patience
          (Sequence.eightBit number 0x11) received st).ending r.device
          ⟨m, cursor, packets r.framing m (base + (offset + received)) left number ++ [[0xF0]]⟩ =
        (.ok st', ⟨m, cursor, []⟩) ∧ Good (offset + length) st' := by
  induction left using Nat.strongRecOn with
  | ind left ih =>
  intro patience received number st hleft hpatience hgood
  obtain ⟨patience, rfl⟩ : ∃ p, patience = p + 1 := ⟨patience - 1, by omega⟩
  rcases Nat.eq_zero_or_pos left with rfl | hpos
  · refine ⟨st, ?_, by rwa [← hleft]⟩
    rw [packets_zero, List.nil_append, receiveChunk,
      ending_bind_ok (r.ending_receivePacket m cursor _ _ _ _)]
    have hkind : kind 0xF0 = done := rfl
    have hreceived : received = length := by omega
    simp only [hkind, hreceived, if_true, ending_pure]
  · obtain ⟨code, hcode, hsize, hle, heq⟩ :=
      hf.exists_packets_eq m (base + (offset + received)) hpos number
    obtain ⟨next, habsorbed, hnext⟩ := habsorb (offset + received) st (r.framing.payload code) hgood
      (by omega)
    rw [heq, receiveChunk, List.cons_append, ending_bind_ok (r.ending_receivePacket m cursor _ _ _ _)]
    have haccept : (Sequence.eightBit number 0x11).accept number =
        .ok (Sequence.eightBit (number + 0x11) 0x11) :=
      Sequence.accept_eq_ok_iff.2 ⟨rfl, advance_eightBit number 0x11⟩
    have hdone : ¬ (0x60 : UInt8) = done := by decide
    have hslice : (m.slice (base + (offset + received)) (r.framing.payload code)).take
        (r.framing.payload code) = m.slice (base + (offset + received)) (r.framing.payload code) :=
      m.take_slice (Nat.le_refl _)
    simp only [kind_packetCode hcode, payload_packetCode hcode, haccept, hdone, if_false, ne_eq,
      not_true_eq_false, Memory.length_slice, Nat.lt_irrefl, check, pure_bind, hslice, habsorbed]
    rw [if_neg (by omega)]
    have := ih (left - r.framing.payload code) (by omega) patience
      (received + r.framing.payload code) (number + 0x11) next (by omega) (by omega)
      (by rwa [← Nat.add_assoc])
    simpa only [← Nat.add_assoc] using this

/-- A transfer brings the chunks of a range to the host. A chunk takes fewer packets than it has
bytes, so a host with more patience than that is never tried. -/
theorem ending_transferChunks (hf : r.framing.Lawful) (m : Memory) (cursor : Nat)
    {address : UInt32}
    (habsorb : ∀ place st n, Good place st → place + n ≤ total →
      ∃ st', absorb st place (m.slice (address.toNat + place) n) = pure st' ∧ Good (place + n) st')
    (hbound : 0 < total → address.toNat + total ≤ 0x1000000) {patience : Nat}
    (hpatience : r.framing.readSize < patience) (stage : Stage) (count : Nat) :
    ∀ (offset : Nat) (st : σ), offset ≤ total → total - offset ≤ count * r.framing.readSize →
      count * r.framing.readSize < total - offset + r.framing.readSize → Good offset st →
      ∃ st', (transferChunks r.framing absorb stage patience address total count offset st).ending
          r.device ⟨m, cursor, []⟩ = (.ok st', ⟨m, cursor, []⟩) ∧ Good total st' := by
  induction count with
  | zero =>
    intro offset st hoffset hmost _ hgood
    obtain rfl : offset = total := by omega
    exact ⟨st, ending_pure _, hgood⟩
  | succ count ih =>
    intro offset st hoffset hmost hleast hgood
    rw [Nat.succ_mul] at hmost hleast
    have hread := hf.readSize_le
    have hlast := hbound (by omega)
    obtain ⟨size, hsize⟩ : ∃ size, min (total - offset) r.framing.readSize = size := ⟨_, rfl⟩
    obtain ⟨start, hstart, hstart'⟩ := exists_checkedSum (a := address) (n := offset) (by omega)
    obtain ⟨next, hchunk, hnext⟩ := ending_receiveChunk hf m cursor habsorb offset size
      (by omega) size patience 0 0x01 st (by omega) (by omega) hgood
    obtain ⟨last, hrest, hlast⟩ := ih (offset + size) next (by omega) (by omega) (by omega) hnext
    refine ⟨last, ?_, hlast⟩
    simp only [Nat.add_zero, ← hstart'] at hchunk
    rw [transferChunks, hsize, ending_bind_ok (ending_ofChecked_some hstart),
      ending_bind_ok (Device.ending_send _ _),
      r.obey_readCommand m cursor (by omega) (by omega), flashSequence, ending_bind_ok hchunk,
      ending_bind_ok (ending_progress _ _ _), hrest]

/-- A transfer from a simulated remote ends well with what its payloads make up. -/
theorem ending_transfer (hf : r.framing.Lawful) (m : Memory) (cursor : Nat) {address : UInt32}
    (habsorb : ∀ place st n, Good place st → place + n ≤ total →
      ∃ st', absorb st place (m.slice (address.toNat + place) n) = pure st' ∧ Good (place + n) st')
    (hbound : 0 < total → address.toNat + total ≤ 0x1000000) {patience : Nat}
    (hpatience : r.framing.readSize < patience) (stage : Stage) (st : σ) (hgood : Good 0 st) :
    ∃ st', (transfer r.framing absorb stage patience address total st).ending
        r.device ⟨m, cursor, []⟩ = (.ok st', ⟨m, cursor, []⟩) ∧ Good total st' := by
  have hcount := hf.count_bounds total
  exact ending_transferChunks hf m cursor habsorb hbound hpatience stage _ 0 st (by omega)
    (by omega) (by omega) hgood

end Absorb

theorem ending_readFlash (hf : r.framing.Lawful) (m : Memory) (cursor : Nat) {address : UInt32}
    {length : Nat} (hbound : 0 < length → address.toNat + length ≤ 0x1000000) {patience : Nat}
    (hpatience : r.framing.readSize < patience) :
    (readFlash r.framing patience address length).ending r.device ⟨m, cursor, []⟩ =
      (.ok (m.slice address.toNat length), ⟨m, cursor, []⟩) := by
  -- the payloads kept up to a place are what the memory holds before it
  have habsorb : ∀ place past n, past.reverse.flatten = m.slice address.toNat place →
      place + n ≤ length →
      ∃ past', keep past place (m.slice (address.toNat + place) n) = pure past' ∧
        past'.reverse.flatten = m.slice address.toNat (place + n) := by
    intro place past n hpast _
    exact ⟨_, rfl, by simp [hpast, Memory.slice_append]⟩
  obtain ⟨payloads, htransfer, hgood⟩ :=
    ending_transfer hf m cursor habsorb hbound hpatience .readFlash [] rfl
  rw [readFlash, ending_bind_ok htransfer, hgood, ending_pure]

theorem firstDifference_self_append (a rest : List UInt8) : firstDifference a (a ++ rest) = none := by
  unfold firstDifference
  induction a with
  | nil => simp
  | cons x a ih => simp [List.findIdx?_cons, ih]

/-- A payload that agrees with the front of what is expected leaves what is expected behind it. -/
theorem compare_self_append (address : UInt32) (data rest : List UInt8) (place : Nat) :
    compare address (data ++ rest) place data = pure rest := by
  simp only [compare, firstDifference_self_append, List.drop_left]

theorem ending_compareFlash (hf : r.framing.Lawful) (m : Memory) (cursor : Nat) {address : UInt32}
    {expected : List UInt8}
    (hbound : 0 < expected.length → address.toNat + expected.length ≤ 0x1000000) {patience : Nat}
    (hpatience : r.framing.readSize < patience)
    (hexpected : m.slice address.toNat expected.length = expected) :
    (compareFlash r.framing patience address expected).ending r.device ⟨m, cursor, []⟩ =
      (.ok (), ⟨m, cursor, []⟩) := by
  -- what is still expected at a place is what the memory holds from there on
  have habsorb : ∀ place rest n,
      rest = m.slice (address.toNat + place) (expected.length - place) →
      place + n ≤ expected.length →
      ∃ rest', compare address rest place (m.slice (address.toNat + place) n) = pure rest' ∧
        rest' = m.slice (address.toNat + (place + n)) (expected.length - (place + n)) := by
    intro place rest n hrest hle
    have hsplit := m.slice_append (address.toNat + place) n (expected.length - (place + n))
    rw [show n + (expected.length - (place + n)) = expected.length - place by omega, ← hrest] at hsplit
    rw [← hsplit, compare_self_append, Nat.add_assoc]
    exact ⟨_, rfl, rfl⟩
  obtain ⟨rest, htransfer, -⟩ := ending_transfer hf m cursor habsorb hbound hpatience .compareFlash
    expected hexpected.symm
  change (transfer _ _ _ _ _ _ _ >>= fun _ => pure ()).ending r.device _ = _
  rw [ending_bind_ok htransfer, ending_pure]

end UniversalRemote.Classic.Simulated
