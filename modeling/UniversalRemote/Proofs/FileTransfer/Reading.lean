import UniversalRemote.FileTransfer.Basic
import UniversalRemote.Proofs.FileTransfer.Reception
import UniversalRemote.Proofs.Link.Scripted
/-!
# Reading a file

A transfer of a file to the host is described here byte by byte and without the host: what the remote
sends, and where between its reports the host writes what. `fetchFile_eq_ok_iff` says that a file is
fetched from exactly these reports, which bytes it then has, and that this is the dialogue.
-/

namespace UniversalRemote.FileTransfer

open Exchange

/-- What a remote sends in a transfer of a file. -/
structure Reading where
  /-- The answer to the open request. -/
  opening : Report
  /-- The answer to the first acknowledgement. -/
  answer : Report
  packets : List Report
  /-- The data packets, with the answers to later acknowledgements between them. -/
  stream : List Report
  /-- The answer to the release of the token. -/
  closing : Report

namespace Reading

variable (r : Reading)

def token : UInt8 :=
  r.opening.getD 5 0

def length : Nat :=
  ByteOrder.big.value ((r.opening.drop 7).take 4)

def reports : List Report :=
  r.opening :: r.answer :: (r.stream ++ [r.closing])

def data : List UInt8 :=
  r.packets.flatMap payload

/-- The number of answers to acknowledgements within the stream. -/
def pauses : Nat :=
  (r.packets.length - 1) / 50

/-- The reports make up a transfer. -/
structure Valid : Prop where
  opening : 11 ≤ r.opening.length
  packets : r.packets.length = (r.length + 61) / 62
  /-- One more report stands behind every fiftieth packet that is not the last. -/
  stream_length : r.stream.length = r.packets.length + r.pauses
  stream : ∀ i < r.packets.length, r.stream[i + i / 50]? = r.packets[i]?
  /-- Each packet has the bytes that its second byte announces. -/
  full : ∀ packet ∈ r.packets, 2 + payloadSize packet ≤ packet.length
  /-- The packets are numbered in a row from the number of the first. -/
  numbered : ∀ i packet, 0 < i → r.packets[i]? = some packet →
    (packet.getD 0 0).toNat = (((r.packets.headD []).getD 0 0).toNat + i) % 64
  sum : (r.packets.map payloadSize).sum = r.length

/-- The acknowledgement behind so many fifties of packets, where the host numbers its own from `start`
on. It asks for one packet more than are still to come, or for 51. -/
def ack (start fifties : Nat) : Report :=
  [0xFF, 0x04, numberAt (start + 1 + fifties), 0x02, 0x01, r.token, 0x01,
    UInt8.ofNat (min (r.packets.length + 1 - 50 * fifties) 51)]

/-- The turns of the transfer: the open request, the first acknowledgement, the stream with an
acknowledgement in front of every fifty-first report, and the release of the token. -/
def dialogue (start : Nat) (name : String) : List Turn :=
  [.say ([0xFF, 0x01, numberAt start, 0x02, 0x80] ++ Utf8.encode name ++ [0x00, 0x80, 0x52, 0x00]),
    .hear r.opening, .say (r.ack start 0), .hear r.answer] ++
  (r.stream.zipIdx.flatMap fun (report, i) =>
    if i % 51 = 50 then [.say (r.ack start (i / 51 + 1)), .hear report] else [.hear report]) ++
  [.say [0xFF, 0x07, numberAt (start + 2 + r.pauses), 0x01, 0x01, r.token], .hear r.closing]

end Reading

theorem yields_fetch {name : String} (hname : name.utf8ByteSize ≤ 55) (start : Nat) {stage : Stage}
    {dialogue : List Turn} {data : List UInt8} :
    (fetch name (UInt8.ofNat start) stage).Yields dialogue data ↔
      ∃ opening token length before answer m,
        dialogue = .say (openToRead (numberAt start) 0x02 name) :: .hear opening ::
          (before ++ [.say (releasePacket m.current token), .hear answer]) ∧
        opened opening = .ok (token, length) ∧
        (receiveFile token length stage).Yields (counter (start + 1)) before data m := by
  have hadmit : admitName name 55 = pure () := if_neg (by omega)
  rw [fetch, hadmit, pure_bind]
  constructor
  · intro h
    obtain ⟨⟨token, length⟩, _, rest, rfl, hopen, hhold⟩ := yields_bind.1 h
    obtain ⟨opening, rfl, hopened⟩ := yields_openFile.1 hopen
    obtain ⟨m, before, answer, rfl, hreceive⟩ := Numbered.yields_holding.1 hhold
    rw [advance_counter] at hreceive
    rw [current_counter]
    exact ⟨opening, token, length, before, answer, m, rfl, hopened, hreceive⟩
  · rintro ⟨opening, token, length, before, answer, m, rfl, hopened, hreceive⟩
    have hopen : (openFile (openToRead (counter start).current 0x02 name) fileWait).Yields
        [.say (openToRead (numberAt start) 0x02 name), .hear opening] (token, length) := by
      rw [current_counter]
      exact yields_openFile.2 ⟨opening, rfl, hopened⟩
    rw [← advance_counter] at hreceive
    exact yields_bind.2 ⟨(token, length), _, _, rfl, hopen,
      Numbered.yields_holding.2 ⟨m, before, answer, rfl, hreceive⟩⟩

theorem yields_fetchFile {name : String} (hconfig : name ≠ configName) {dialogue : List Turn}
    {data : List UInt8} :
    (fetchFile name).Yields dialogue data ↔ (fetch name 0x00 .fetchFile).Yields dialogue data := by
  rw [fetchFile, yields_bind]
  simp only [if_neg hconfig]
  constructor
  · rintro ⟨contents, before, _, rfl, hfetch, hpure⟩
    obtain ⟨rfl, rfl⟩ := yields_pure.1 hpure
    rwa [List.append_nil]
  · intro h
    exact ⟨data, dialogue, [], (List.append_nil _).symm, h, yields_pure.2 ⟨rfl, rfl⟩⟩

namespace Reading

variable {r : Reading} {name : String}

theorem Valid.opened (h : r.Valid) : opened r.opening = .ok (r.token, r.length) :=
  opened_eq_ok_iff.2 ⟨h.opening, rfl, rfl⟩

theorem pauses_eq (r : Reading) : FileTransfer.pauses 0 r.packets.length = r.pauses := by
  rw [pauses, FileTransfer.pauses, Nat.zero_add]
  rfl

theorem Valid.spread (h : r.Valid) : Spread 0 r.packets r.stream := by
  refine ⟨?_, fun i hi => ?_⟩
  · rw [h.stream_length, pauses_eq]
  · rw [Nat.zero_add]
    exact h.stream i hi

theorem Valid.countedPackets (h : r.Valid) : r.packets.length + 1 = countedPackets r.length := by
  rw [h.packets]
  rfl

theorem dialogue_eq (start : Nat) (name : String) :
    r.dialogue start name =
      .say (openToRead (numberAt start) 0x02 name) :: .hear r.opening ::
        (.say (readAck (numberAt (start + 1)) r.token (window (r.packets.length + 1))) ::
          .hear r.answer :: exchanges (r.ack start) 0 r.stream ++
        [.say (releasePacket (numberAt (start + 2 + r.pauses)) r.token), .hear r.closing]) := by
  rw [dialogue, openToRead_eq]
  rfl

theorem hears_dialogue (r : Reading) (start : Nat) (name : String) :
    Hears (r.dialogue start name) r.reports := by
  rw [dialogue_eq]
  refine ⟨rfl, r.opening, _, rfl, rfl, rfl, r.answer, _, rfl, rfl, ?_⟩
  exact (hears_exchanges _ r.stream).append ⟨rfl, r.closing, [], rfl, rfl, rfl⟩

/-- The packets are woven in among acknowledgements just as the stream is taken. -/
theorem woven_iff (r : Reading) (start : Nat) {later : List Turn} {final : Nat} :
    Woven r.token (start + 2) 0 r.packets later final ↔
      ∃ stream, Spread 0 r.packets stream ∧ later = exchanges (r.ack start) 0 stream ∧
        start + 2 + r.pauses = final := by
  rw [← pauses_eq]
  exact FileTransfer.woven_iff (fun _ => rfl) r.packets 0 0 (fun _ => by decide) (by decide)
    (by omega)

theorem exists_of_yields_fetch (hname : name.utf8ByteSize ≤ 55) (start : Nat) {stage : Stage}
    {dialogue : List Turn} {data : List UInt8}
    (h : (fetch name (UInt8.ofNat start) stage).Yields dialogue data) :
    ∃ r : Reading, r.Valid ∧ r.data = data ∧ dialogue = r.dialogue start name := by
  obtain ⟨opening, token, length, _, closing, m, rfl, hopened, hreceive⟩ :=
    (yields_fetch hname start).1 h
  obtain ⟨answer, later, packets, final, rfl, hpackets, hfull, hrow, hsum, hwoven, rfl, hdata⟩ :=
    yields_receiveFile.1 hreceive
  obtain ⟨hlong, rfl, rfl⟩ := opened_eq_ok_iff.1 hopened
  let unread : Reading := ⟨opening, answer, packets, [], closing⟩
  obtain ⟨stream, hspread, rfl, rfl⟩ := (unread.woven_iff start).1 hwoven
  let r : Reading := ⟨opening, answer, packets, stream, closing⟩
  refine ⟨r, ⟨hlong, ?_, ?_, ?_, hfull, inRow_none.1 hrow, hsum⟩, hdata, ?_⟩
  · exact Nat.succ.inj hpackets
  · rw [← pauses_eq]
    exact hspread.length_eq
  · intro i hi
    have hget := hspread.getElem?_eq i hi
    rwa [Nat.zero_add] at hget
  · have hcounted : r.packets.length + 1 = FileTransfer.countedPackets r.length := hpackets
    rw [dialogue_eq, hcounted, current_counter]
    rfl

theorem Valid.yields_fetch (h : r.Valid) (hname : name.utf8ByteSize ≤ 55) (start : Nat)
    (stage : Stage) : (fetch name (UInt8.ofNat start) stage).Yields (r.dialogue start name) r.data := by
  have hwoven := (r.woven_iff start).2 ⟨r.stream, h.spread, rfl, rfl⟩
  rw [dialogue_eq, h.countedPackets, ← current_counter (start + 2 + r.pauses)]
  refine (FileTransfer.yields_fetch hname start).2
    ⟨r.opening, r.token, r.length, _, r.closing, _, rfl, h.opened, ?_⟩
  exact yields_receiveFile.2 ⟨r.answer, _, r.packets, _, rfl, h.countedPackets, h.full,
    inRow_none.2 h.numbered, h.sum, hwoven, rfl, rfl⟩

theorem yields_fetchFile_iff (hname : name.utf8ByteSize ≤ 55) (hconfig : name ≠ configName)
    {dialogue : List Turn} {data : List UInt8} :
    (fetchFile name).Yields dialogue data ↔
      ∃ r : Reading, r.Valid ∧ r.data = data ∧ dialogue = r.dialogue 0 name := by
  rw [yields_fetchFile hconfig]
  constructor
  · exact exists_of_yields_fetch hname 0
  · rintro ⟨r, hvalid, rfl, rfl⟩
    exact hvalid.yields_fetch hname 0 .fetchFile

end Reading

/-- A file is fetched exactly if the script begins with what makes up a transfer. Those are the
reports that the host takes, and it writes what the dialogue of the transfer says and where it does. -/
theorem fetchFile_eq_ok_iff (name : String) (hname : name.utf8ByteSize ≤ 55)
    (hconfig : name ≠ "/cfg/usercfg") (s : Script) (hwrites : ∀ n, s.failures n = none)
    (data : List UInt8) :
    let run := (fetchFile name).run.run Script.device s
    (run.result = .ok data ↔
      ∃ r : Reading, r.Valid ∧ r.data = data ∧ ∃ rest, s.reads = r.reports.map .report ++ rest) ∧
    (run.result = .ok data →
      ∃ r : Reading, r.Valid ∧ r.data = data ∧
        s.reads = r.reports.map .report ++ run.state.reads ∧
        turns run.trace = r.dialogue 0 name) := by
  intro run
  have hsound : run.result = .ok data →
      ∃ r : Reading, r.Valid ∧ r.data = data ∧
        s.reads = r.reports.map .report ++ run.state.reads ∧
        turns run.trace = r.dialogue 0 name := by
    intro hresult
    have htakes : (fetchFile name).Yields (turns run.trace) data := by
      have := Program.takes_run (fetchFile name).run Script.device s
      rwa [show ((fetchFile name).run.run Script.device s).result = .ok data from hresult] at this
    obtain ⟨r, hvalid, hdata, hturns⟩ := (Reading.yields_fetchFile_iff hname hconfig).1 htakes
    have hheard := r.hears_dialogue 0 name
    rw [← hturns] at hheard
    exact ⟨r, hvalid, hdata, Script.reads_of_hears hheard, hturns⟩
  refine ⟨⟨fun hresult => ?_, ?_⟩, hsound⟩
  · obtain ⟨r, hvalid, hdata, hreads, -⟩ := hsound hresult
    exact ⟨r, hvalid, hdata, _, hreads⟩
  · rintro ⟨r, hvalid, rfl, rest, hreads⟩
    have hyields := (Reading.yields_fetchFile_iff hname hconfig).2 ⟨r, hvalid, rfl, rfl⟩
    exact Script.result_of_hears hyields (r.hears_dialogue 0 name) hreads hwrites

/-- Sixty-three bytes in two packets, whose numbers start over between them. -/
theorem fetchFile_eq_ok_two_packets :
    let first : Report := 0x3F :: 0x3E :: List.replicate 62 0x5A
    let s : Script := { reads := [.report [0xFF, 0x01, 0x00, 0x02, 0x01, 0x2A, 0x04, 0, 0, 0, 63],
      .report [0xFF], .report first, .report [0x00, 0xC1, 0xAA, 0xEE], .report [], .silence] }
    ((fetchFile "/f").run.run Script.device s).result = .ok (List.replicate 62 0x5A ++ [0xAA]) := by
  intro first s
  let r : Reading :=
    { opening := [0xFF, 0x01, 0x00, 0x02, 0x01, 0x2A, 0x04, 0, 0, 0, 63], answer := [0xFF],
      packets := [first, [0x00, 0xC1, 0xAA, 0xEE]], stream := [first, [0x00, 0xC1, 0xAA, 0xEE]],
      closing := [] }
  refine (fetchFile_eq_ok_iff "/f" (by decide) (by decide) s (fun _ => rfl)
    (List.replicate 62 0x5A ++ [0xAA])).1.2 ⟨r, ?_, by decide, [.silence], rfl⟩
  refine ⟨by decide, by decide, by decide, ?_, by decide, ?_, by decide⟩
  · intro i hi
    have hpause : i / 50 = 0 := Nat.div_eq_of_lt (Nat.lt_trans hi (by decide))
    rw [hpause]
    rfl
  · intro i packet hi hpacket
    match i with
    | 0 => omega
    | 1 =>
      obtain rfl := Option.some.inj hpacket
      decide
    | _ + 2 => exact nomatch hpacket

end UniversalRemote.FileTransfer
