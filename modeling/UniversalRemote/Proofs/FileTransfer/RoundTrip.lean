import UniversalRemote.Proofs.FileTransfer.Reading
import UniversalRemote.Proofs.FileTransfer.Simulation
/-!
# A stored file is fetched again

Each direction is a dialogue that both sides go along with: what the host yields and what the remote
plays meet packet by packet, in the acknowledgements behind every fiftieth packet as well.
-/

namespace UniversalRemote.FileTransfer.Simulated

open Exchange

variable {r : Simulated}

/-! ## Storing -/

section Host

variable {token : UInt8} {length unacked sent count : Nat} {stage : Stage} {chunk : List UInt8}
  {rest : List (List UInt8)} {dialogue : List Turn} {m : Sequence}

theorem yields_sendData_cons (hack : ¬ unacked + 1 = ackInterval) :
    (sendData token length stage (chunk :: rest) unacked sent).Yields (counter count) dialogue ()
        m ↔
      ∃ later, dialogue = .say (dataPacket (numberAt count) chunk) :: later ∧
        (sendData token length stage rest (unacked + 1) (sent + chunk.length)).Yields
          (counter (count + 1)) later () m := by
  rw [sendData, Numbered.yields_next_bind, Numbered.yields_send_bind]
  simp only [if_neg hack]
  exact Iff.rfl

theorem yields_sendData_paused (hack : unacked + 1 = ackInterval) :
    (sendData token length stage (chunk :: rest) unacked sent).Yields (counter count) dialogue ()
        m ↔
      ∃ answer later, dialogue = .say (dataPacket (numberAt count) chunk) :: .hear answer ::
          .say (writeAck (numberAt (count + 1)) token (window (rest.length + 2))) :: later ∧
        (sendData token length stage rest 0 (sent + chunk.length)).Yields
          (counter (count + 2)) later () m := by
  rw [sendData, Numbered.yields_next_bind, Numbered.yields_send_bind]
  simp only [if_pos hack]
  constructor
  · rintro ⟨_, rfl, h⟩
    obtain ⟨answer, _, rfl, hnext⟩ := Numbered.yields_receive_bind.1 h
    obtain ⟨later, rfl, hlater⟩ := Numbered.yields_send_bind.1 (Numbered.yields_next_bind.1 hnext)
    exact ⟨answer, later, rfl, hlater⟩
  · rintro ⟨answer, later, rfl, h⟩
    refine ⟨_, rfl, Numbered.yields_receive_bind.2 ⟨answer, _, rfl, ?_⟩⟩
    exact Numbered.yields_next_bind.2 (Numbered.yields_send_bind.2 ⟨later, rfl, h⟩)

theorem yields_store {name : String} (hname : name.utf8ByteSize ≤ 50) {content : List UInt8}
    {opening : Report} (stored closing : Report) {told : Nat}
    (hopened : opened opening = .ok (token, told))
    (hsend : (sendData token content.length .storeFile (chunks 62 content) 0 0).Yields (counter 2)
      dialogue () m) :
    (store name content).Yields
      (.say (openToWrite (numberAt 0) name content.length) :: .hear opening ::
        .say (writeAck (numberAt 1) token (window (countedPackets content.length))) ::
          (dialogue ++ [.say endOfData, .hear stored, .say (releasePacket m.current token),
            .hear closing])) () := by
  have hadmit : admitName name 50 = pure () := if_neg (by omega)
  have hstart : Sequence.sixBit 0 = counter 0 := rfl
  rw [store, hadmit, pure_bind]
  simp only [hstart, current_counter, advance_counter]
  refine yields_bind.2 ⟨(token, told), [.say _, .hear opening], _, rfl,
    yields_openFile.2 ⟨opening, rfl, hopened⟩, Numbered.yields_holding.2 ?_⟩
  refine ⟨m, .say (writeAck (numberAt 1) token (window (countedPackets content.length))) ::
    (dialogue ++ [.say endOfData, .hear stored]), closing, ?_, ?_⟩
  · rw [List.cons_append, List.append_assoc]
    rfl
  · refine Numbered.yields_next_bind.2 (Numbered.yields_send_bind.2 ⟨_, rfl, ?_⟩)
    refine Numbered.yields_bind.2 ⟨(), m, dialogue, _, rfl, hsend, ?_⟩
    exact Numbered.yields_converse_bind.2 ⟨stored, [], rfl, Numbered.yields_pure.2 ⟨rfl, rfl, rfl⟩⟩

end Host

theorem takeData_dataPacket {s : State} {name received : List UInt8} {count : Nat}
    (hphase : s.phase = .storing name received count) (number : UInt8) {chunk : List UInt8}
    (hchunk : chunk.length < 64) :
    r.takeData s (dataPacket number chunk) =
      let taken := { s with phase := .storing name (received ++ chunk) (count + 1) }
      if (count + 1) % 50 = 0 then r.reply taken else taken := by
  unfold takeData
  simp only [hphase, payload_dataPacket number hchunk]

theorem exists_sendData (token : UInt8) (length : Nat) (stage : Stage)
    (pieces : List (List UInt8)) :
    ∀ (s : State) {name received : List UInt8} {taken : Nat} (unacked sent count : Nat),
      s.phase = .storing name received taken → taken % 50 = unacked → s.unread = [] →
      (∀ chunk ∈ pieces, chunk.length < 64) →
      ∃ dialogue m k,
        (sendData token length stage pieces unacked sent).Yields (counter count) dialogue () m ∧
        r.device.Plays dialogue s { s with
          phase := .storing name (received ++ pieces.flatten) (taken + pieces.length)
          sent := k } := by
  -- `taken % 50 = unacked` keeps the two counts in step, so that both sides pause at one packet
  induction pieces with
  | nil =>
    intro s name received taken unacked sent count hphase _ _ _
    refine ⟨[], counter count, s.sent, Numbered.yields_pure.2 ⟨rfl, rfl, rfl⟩, ?_⟩
    rw [List.flatten_nil, List.append_nil]
    show s = _
    rw [List.length_nil, Nat.add_zero, ← hphase]
  | cons chunk rest ih =>
    intro s name received taken unacked sent count hphase htaken hunread hpieces
    obtain ⟨hchunk, hrest⟩ := List.forall_mem_cons.1 hpieces
    have hobey : r.obey s (dataPacket (numberAt count) chunk) = _ :=
      (obey_dataPacket count chunk).trans (takeData_dataPacket hphase (numberAt count) hchunk)
    rw [List.flatten_cons, ← List.append_assoc, List.length_cons, Nat.add_comm rest.length 1,
      ← Nat.add_assoc]
    by_cases hack : unacked + 1 = ackInterval
    · have hdue : (taken + 1) % 50 = 0 := by
        unfold ackInterval at hack
        omega
      simp only [if_pos hdue] at hobey
      obtain ⟨later, m, k, hyields, hplays⟩ := ih
        { s with phase := .storing name (received ++ chunk) (taken + 1), sent := s.sent + 1 }
        0 (sent + chunk.length) (count + 2) rfl hdue hunread hrest
      have hsend := (yields_sendData_paused hack).2
        ⟨(r.choice s.sent).reply, later, rfl, hyields⟩
      refine ⟨_, m, k, hsend, plays_answered hobey rfl hunread (Device.plays_say ?_)⟩
      rw [obey_writeAck]
      exact hplays
    · have hdue : ¬ (taken + 1) % 50 = 0 := by
        unfold ackInterval at hack
        omega
      simp only [if_neg hdue] at hobey
      obtain ⟨later, m, k, hyields, hplays⟩ := ih
        { s with phase := .storing name (received ++ chunk) (taken + 1) }
        (unacked + 1) (sent + chunk.length) (count + 1) rfl (by omega) hunread hrest
      refine ⟨_, m, k, (yields_sendData_cons hack).2 ⟨later, rfl, hyields⟩, Device.plays_say ?_⟩
      rw [hobey]
      exact hplays

theorem length_lt_of_mem_chunks {content chunk : List UInt8} (h : chunk ∈ chunks 62 content) :
    chunk.length < 64 := by
  have := length_le_of_mem_chunks (by decide) h
  omega

theorem plays_endOfData {s : State} {name received : List UInt8} {count : Nat}
    (hphase : s.phase = .storing name received count) (hunread : s.unread = []) :
    r.device.Plays [.say endOfData, .hear (r.choice s.sent).reply] s { s with
      files := fun other => if other = name then some received else s.files other
      phase := .idle, sent := s.sent + 1 } := by
  have hkeep : r.obey s endOfData = r.reply { s with
      phase := .idle
      files := fun other => if other = name then some received else s.files other } := by
    rw [obey_endOfData, keep, hphase]
  exact plays_answered hkeep rfl hunread rfl

theorem plays_release {s : State} (hunread : s.unread = []) (number : UInt8) :
    r.device.Plays [.say (releasePacket number s.token), .hear (r.choice s.sent).reply] s
      { s with phase := .idle, sent := s.sent + 1 } :=
  plays_answered (obey_release number) rfl hunread rfl

theorem ending_store {name : String} (hname : name.utf8ByteSize ≤ 50)
    (hzero : 0 ∉ Utf8.encode name) (content : List UInt8) {s : State} (hunread : s.unread = []) :
    ∃ token k, (store name content).ending r.device s = (.ok (), { s with
      files := fun other => if other = Utf8.encode name then some content else s.files other
      phase := .idle, token, sent := k }) := by
  obtain ⟨c, hc⟩ : ∃ c, r.choice s.sent = c := ⟨_, rfl⟩
  obtain ⟨later, m, k, hyields, hplays⟩ :=
    exists_sendData (r := r) c.token content.length .storeFile (chunks 62 content)
      { s with phase := .storing (Utf8.encode name) [] 0, token := c.token, sent := s.sent + 1 }
      0 0 2 rfl rfl hunread fun _ => length_lt_of_mem_chunks
  have hstore := yields_store hname (r.choice k).reply (r.choice (k + 1)).reply
    (c.opened_opening c.declared) hyields
  rw [flatten_chunks] at hplays
  refine ⟨c.token, k + 2, hstore.ending (Device.plays_say ?_)⟩
  rw [obey_openToWrite hzero, hc, emit, hunread]
  refine Device.plays_hear rfl (Device.plays_say ?_)
  rw [obey_writeAck]
  rw [hunread] at hplays
  exact hplays.append ((plays_endOfData rfl rfl).append (plays_release rfl _))

/-! ## Fetching -/

theorem plays_readAck {s t : State} {packets : List Report} (hphase : s.phase = .serving packets)
    (hunread : s.unread = []) (number size : UInt8) {rest : List Turn}
    (h : r.device.Plays rest { s with
      phase := .serving (packets.drop 50), sent := s.sent + 1 + (packets.take 50).length
      unread := packets.take 50 } t) :
    r.device.Plays
      (.say (readAck number s.token size) :: .hear (r.choice s.sent).reply :: rest) s t := by
  have hproceed : r.proceed s = { s with
      phase := .serving (packets.drop 50), sent := s.sent + 1 + (packets.take 50).length
      unread := (r.choice s.sent).reply :: packets.take 50 } := by
    unfold proceed reply emit
    simp only [hphase, hunread, List.nil_append, List.singleton_append]
  refine Device.plays_say ?_
  rw [obey_readAck, hproceed]
  exact Device.plays_hear rfl h

theorem exists_woven (packets : List Report) :
    ∀ (s : State) (count unacked : Nat), (packets ≠ [] → unacked < 50) →
      s.phase = .serving (packets.drop (50 - unacked)) → s.unread = packets.take (50 - unacked) →
      ∃ dialogue final k, Woven s.token count unacked packets dialogue final ∧
        r.device.Plays dialogue s { s with phase := .serving [], sent := k, unread := [] } := by
  -- of the packets left, `50 - unacked` were sent, and the others wait for an acknowledgement
  induction packets with
  | nil =>
    intro s count unacked _ hphase hunread
    rw [List.drop_nil] at hphase
    rw [List.take_nil] at hunread
    refine ⟨[], count, s.sent, ⟨rfl, rfl⟩, ?_⟩
    show s = _
    rw [← hphase, ← hunread]
  | cons packet rest ih =>
    intro s count unacked hunacked hphase hunread
    have hunacked := hunacked (List.cons_ne_nil _ _)
    obtain ⟨ahead, hahead⟩ : ∃ ahead, 50 - unacked = ahead + 1 := ⟨49 - unacked, by omega⟩
    rw [hahead, List.drop_succ_cons] at hphase
    rw [hahead, List.take_succ_cons] at hunread
    by_cases hack : 0 < rest.length ∧ unacked + 1 = ackInterval
    · have hnone : ahead = 0 := by
        have := hack.2
        unfold ackInterval at this
        omega
      subst hnone
      rw [List.drop_zero] at hphase
      rw [List.take_zero] at hunread
      obtain ⟨later, final, k, hwoven, hplays⟩ := ih
        { s with phase := .serving (rest.drop 50), sent := s.sent + 1 + (rest.take 50).length,
                 unread := rest.take 50 }
        (count + 1) 0 (fun _ => by decide) rfl rfl
      refine ⟨[.hear packet, .say (readAck (numberAt count) s.token (window (rest.length + 1))),
        .hear (r.choice s.sent).reply] ++ later, final, k, ?_, ?_⟩
      · refine ⟨_, later, count + 1, 0, rfl, ?_, hwoven⟩
        rw [Paced, if_pos hack]
        exact ⟨⟨_, rfl⟩, rfl, rfl⟩
      · refine Device.plays_hear hunread ?_
        exact plays_readAck (s := { s with unread := [] }) hphase rfl _ _ hplays
    · have hmore : rest ≠ [] → unacked + 1 < 50 := by
        intro hrest
        have := List.length_pos_iff.2 hrest
        unfold ackInterval at hack
        omega
      have hleft : ahead = 50 - (unacked + 1) := by omega
      obtain ⟨later, final, k, hwoven, hplays⟩ := ih
        { s with unread := rest.take ahead } count (unacked + 1) hmore (hleft ▸ hphase)
        (hleft ▸ rfl)
      refine ⟨[.hear packet] ++ later, final, k, ?_, Device.plays_hear hunread hplays⟩
      refine ⟨_, later, count, unacked + 1, rfl, ?_, hwoven⟩
      rw [Paced, if_neg hack]
      exact ⟨rfl, rfl, rfl⟩

theorem ending_fetchFile {name : String} (hname : name.utf8ByteSize ≤ 55)
    (hconfig : name ≠ configName) (hzero : 0 ∉ Utf8.encode name) {content : List UInt8}
    (hcontent : content.length < 4294967296) {s : State}
    (hstored : s.files (Utf8.encode name) = some content) (hunread : s.unread = []) :
    ∃ token k, (fetchFile name).ending r.device s =
      (.ok content, { s with phase := .idle, token, sent := k }) := by
  obtain ⟨c, hc⟩ : ∃ c, r.choice s.sent = c := ⟨_, rfl⟩
  have hpieces : ∀ chunk ∈ chunks 62 content, chunk.length < 64 := fun _ => length_lt_of_mem_chunks
  obtain ⟨packets, hpackets⟩ : ∃ packets,
      r.packets (s.sent + 1) c.number (chunks 62 content) = packets := ⟨_, rfl⟩
  have hcount : packets.length + 1 = countedPackets content.length := by
    rw [← hpackets, length_packets, length_chunks (by decide)]
    rfl
  have hfull : ∀ packet ∈ packets, Full packet := hpackets ▸ full_of_mem_packets hpieces
  have hrow : InRow none packets := hpackets ▸ inRow_packets _ _ _
  have hsum : (packets.map payloadSize).sum = content.length := by
    rw [← hpackets, sum_payloadSize_packets hpieces, flatten_chunks]
  have hdata : packets.flatMap payload = content := by
    rw [← hpackets, flatMap_payload_packets _ _ hpieces, flatten_chunks]
  have hopened : opened (c.opening content.length) = .ok (c.token, content.length) := by
    rw [c.opened_opening, Nat.mod_eq_of_lt hcontent]
  obtain ⟨later, final, k, hwoven, hplays⟩ := exists_woven (r := r) packets
    { s with phase := .serving (packets.drop 50), token := c.token
             sent := s.sent + 1 + 1 + (packets.take 50).length, unread := packets.take 50 }
    2 0 (fun _ => by decide) rfl rfl
  have hreceive : (receiveFile c.token content.length .fetchFile).Yields (counter 1)
      (.say (readAck (numberAt 1) c.token (window (countedPackets content.length))) ::
        .hear (r.choice (s.sent + 1)).reply :: later) content (counter final) :=
    yields_receiveFile.2
      ⟨_, later, packets, final, rfl, hcount, hfull, hrow, hsum, hwoven, rfl, hdata⟩
  have hfetch : (fetchFile name).Yields _ content :=
    (yields_fetchFile hconfig).2 ((yields_fetch hname 0).2
      ⟨c.opening content.length, _, _, _, (r.choice k).reply, _, rfl, hopened, hreceive⟩)
  refine ⟨c.token, k + 1, hfetch.ending (Device.plays_say ?_)⟩
  rw [obey_openToRead hzero hstored, hc, hpackets, emit, hunread]
  refine Device.plays_hear rfl (Device.Plays.append (plays_readAck rfl rfl _ _ hplays) ?_)
  exact plays_release rfl _

/-- A file that was stored is fetched with the same contents, and every report is read. -/
theorem fetchFile_store (r : Simulated) (name : String) (hname : name.utf8ByteSize ≤ 50)
    (hnul : '\x00' ∉ name.toList) (hconfig : name ≠ configName) (content : List UInt8)
    (hcontent : content.length < 4294967296) (s : State) (hunread : s.unread = []) :
    let stored := (store name content).ending r.device s
    let fetched := (fetchFile name).ending r.device stored.2
    stored.1 = .ok () ∧ stored.2.unread = [] ∧ fetched.1 = .ok content ∧ fetched.2.unread = [] := by
  intro stored fetched
  have hzero : 0 ∉ Utf8.encode name := Utf8.zero_notMem_encode hnul
  obtain ⟨token, k, hstore⟩ := ending_store (r := r) hname hzero content hunread
  have hkept : stored.2.files (Utf8.encode name) = some content := by
    rw [show stored = _ from hstore]
    exact if_pos rfl
  have hread : stored.2.unread = [] := by
    rw [show stored = _ from hstore]
    exact hunread
  obtain ⟨token', k', hfetch⟩ := ending_fetchFile (r := r) (Nat.le_trans hname (by decide)) hconfig
    hzero hcontent hkept hread
  have hfetched : fetched = _ := hfetch
  refine ⟨?_, hread, ?_, ?_⟩
  · rw [show stored = _ from hstore]
  · rw [hfetched]
  · rw [hfetched]
    exact hread

/-- A remote that changes its token with every report, and minds it. -/
def changeable : Simulated where
  choice := fun sent =>
    { token := UInt8.ofNat sent, head := (0xFF, 0x01, 0x00, 0x02, 0x01), between := 0x04
      declared := 0, number := 40, mark := sent, padding := [0xEE], reply := [0xFF] }
  strict := true

/-- Fifty-one packets, on either side with an acknowledgement in front of the last one. -/
theorem fetchFile_store_pausing :
    let name := "/cfg/other"
    let content : List UInt8 := List.replicate 3101 0x5A
    let s : State := ⟨fun _ => none, .idle, 0x00, 7, []⟩
    let stored := (store name content).ending changeable.device s
    let fetched := (fetchFile name).ending changeable.device stored.2
    stored.1 = .ok () ∧ stored.2.unread = [] ∧ fetched.1 = .ok content ∧ fetched.2.unread = [] := by
  intro name content s
  have hcontent : content.length < 4294967296 := by
    rw [List.length_replicate]
    decide
  exact fetchFile_store changeable name (by decide) (by decide) (by decide) content hcontent s rfl

end UniversalRemote.FileTransfer.Simulated
