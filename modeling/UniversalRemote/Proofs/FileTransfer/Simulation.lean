import UniversalRemote.FileTransfer.Basic
import UniversalRemote.Proofs.FileTransfer.Reception
import UniversalRemote.Proofs.Link.Obeying
/-!
# A simulated remote that keeps files

A remote that takes in and serves whole files. What it does about each request is said below, one
equation a request. All else that is up to a remote is left open: tokens, the numbers of the data
packets that it serves, answers that tell nothing, padding, and whether it minds the tokens of
requests.
-/

namespace UniversalRemote.FileTransfer

/-- What a remote is free to choose in a report. -/
structure Choice where
  /-- The token of an opened file. -/
  token : UInt8
  /-- What stands before the token, and between it and the length. -/
  head : UInt8 × UInt8 × UInt8 × UInt8 × UInt8
  between : UInt8
  /-- The length that it tells of a file which is opened for writing. -/
  declared : Nat
  /-- The number of the first data packet. -/
  number : Nat
  /-- The two high bits of the second byte of a data packet. -/
  mark : Nat
  padding : List UInt8
  /-- An answer that tells nothing. -/
  reply : Report

namespace Choice

variable (c : Choice)

def opening (length : Nat) : Report :=
  let (a, b, d, e, f) := c.head
  [a, b, d, e, f, c.token, c.between] ++ ByteOrder.big.bytes 4 length ++ c.padding

def packet (number : Nat) (chunk : List UInt8) : Report :=
  numberAt number :: UInt8.ofNat (chunk.length + 64 * c.mark) :: (chunk ++ c.padding)

theorem opened_opening (length : Nat) :
    opened (c.opening length) = .ok (c.token, length % 4294967296) := by
  have hfull : ¬ (c.opening length).length < 11 := by
    simp [opening]
  have hvalue : ByteOrder.big.value ((ByteOrder.big.bytes 4 length ++ c.padding).take 4) =
      length % 4294967296 := by
    rw [List.take_left' (ByteOrder.length_bytes _ _ _), ByteOrder.value_bytes]
    rfl
  rw [opened, if_neg hfull]
  exact congrArg (fun n => Except.ok (c.token, n)) hvalue

theorem payloadSize_packet (number : Nat) {chunk : List UInt8} (hchunk : chunk.length < 64) :
    payloadSize (c.packet number chunk) = chunk.length := by
  show (UInt8.ofNat (chunk.length + 64 * c.mark)).toNat % 64 = _
  simp only [UInt8.toNat_ofNat', Nat.reducePow]
  omega

theorem payload_packet (number : Nat) {chunk : List UInt8} (hchunk : chunk.length < 64) :
    payload (c.packet number chunk) = chunk := by
  rw [payload, c.payloadSize_packet number hchunk]
  exact List.take_left

theorem full_packet (number : Nat) {chunk : List UInt8} (hchunk : chunk.length < 64) :
    Full (c.packet number chunk) := by
  rw [Full, c.payloadSize_packet number hchunk]
  simp [packet]
  omega

end Choice

structure Simulated where
  /-- Its choices, by the number of reports sent before. -/
  choice : Nat → Choice
  /-- Whether it passes over requests that carry a wrong token. -/
  strict : Bool

namespace Simulated

inductive Phase where
  | idle
  /-- It takes in a file, of which some bytes have come in so many packets. -/
  | storing (name received : List UInt8) (count : Nat)
  /-- It serves a file, of which some packets are left. -/
  | serving (packets : List Report)

structure State where
  /-- The contents of the files, by the bytes of their names. -/
  files : List UInt8 → Option (List UInt8)
  phase : Phase
  /-- The token of the file that was opened last. -/
  token : UInt8
  /-- The number of reports sent. -/
  sent : Nat
  /-- What has been sent and not been read. -/
  unread : List Report

variable (r : Simulated)

def emit (s : State) (report : Report) : State :=
  { s with sent := s.sent + 1, unread := s.unread ++ [report] }

/-- Sends an answer that tells nothing. -/
def reply (s : State) : State :=
  emit s (r.choice s.sent).reply

def packets (r : Simulated) : Nat → Nat → List (List UInt8) → List Report
  | _, _, [] => []
  | place, number, chunk :: rest =>
    (r.choice place).packet number chunk :: r.packets (place + 1) (number + 1) rest

def answerOpen (s : State) (report : Report) : State :=
  -- the name stands behind five bytes and ends with a zero; the mode is the second byte behind that
  let name := (report.drop 5).takeWhile (· ≠ 0)
  let mode := ((report.drop 5).dropWhile (· ≠ 0)).getD 2 0
  let choice := r.choice s.sent
  if mode = 0x57 then
    emit { s with phase := .storing name [] 0, token := choice.token }
      (choice.opening choice.declared)
  else if mode = 0x52 then
    match s.files name with
    | some content =>
      let packets := r.packets (s.sent + 1) choice.number (chunks 62 content)
      emit { s with phase := .serving packets, token := choice.token }
        (choice.opening content.length)
    | none => s
  else s

/-- Answers an acknowledgement of a file that it serves, and sends up to fifty packets. -/
def proceed (s : State) : State :=
  match s.phase with
  | .serving packets =>
    let s := r.reply s
    { s with
      phase := .serving (packets.drop 50)
      sent := s.sent + (packets.take 50).length
      unread := s.unread ++ packets.take 50 }
  | _ => s

/-- Takes in a data packet; every fiftieth is answered. -/
def takeData (s : State) (report : Report) : State :=
  match s.phase with
  | .storing name received count =>
    let s := { s with phase := .storing name (received ++ payload report) (count + 1) }
    if (count + 1) % 50 = 0 then r.reply s else s
  | _ => s

def keep (s : State) : State :=
  match s.phase with
  | .storing name received _ =>
    r.reply { s with
      phase := .idle, files := fun other => if other = name then some received else s.files other }
  | _ => s

def obey (s : State) (report : Report) : State :=
  if report.getD 0 0 = 0xFF then
    let operation := report.getD 1 0
    if operation = 0x01 then r.answerOpen s report
    -- from here on a request carries the token of the opened file
    else if r.strict ∧ report.getD 5 0 ≠ s.token then s
    else if operation = 0x04 then r.proceed s
    else if operation = 0x07 then r.reply { s with phase := .idle }
    else s
  else if report = [0x7E] then r.keep s
  else r.takeData s report

abbrev device : Device State :=
  .obeying r.obey State.unread fun s rest => { s with unread := rest }

/-! ## The packets of a file -/

variable {r}

theorem length_packets (place number : Nat) (pieces : List (List UInt8)) :
    (r.packets place number pieces).length = pieces.length := by
  induction pieces generalizing place number with
  | nil => rfl
  | cons chunk rest ih => rw [packets, List.length_cons, List.length_cons, ih]

theorem full_of_mem_packets {place number : Nat} {pieces : List (List UInt8)}
    (hpieces : ∀ chunk ∈ pieces, chunk.length < 64) :
    ∀ packet ∈ r.packets place number pieces, Full packet := by
  induction pieces generalizing place number with
  | nil => nofun
  | cons chunk rest ih =>
    obtain ⟨hchunk, hrest⟩ := List.forall_mem_cons.1 hpieces
    exact List.forall_mem_cons.2 ⟨Choice.full_packet _ _ hchunk, ih hrest⟩

theorem flatMap_payload_packets (place number : Nat) {pieces : List (List UInt8)}
    (hpieces : ∀ chunk ∈ pieces, chunk.length < 64) :
    (r.packets place number pieces).flatMap payload = pieces.flatten := by
  induction pieces generalizing place number with
  | nil => rfl
  | cons chunk rest ih =>
    obtain ⟨hchunk, hrest⟩ := List.forall_mem_cons.1 hpieces
    rw [packets, List.flatMap_cons, Choice.payload_packet _ _ hchunk, ih _ _ hrest,
      List.flatten_cons]

theorem sum_payloadSize_packets {place number : Nat} {pieces : List (List UInt8)}
    (hpieces : ∀ chunk ∈ pieces, chunk.length < 64) :
    ((r.packets place number pieces).map payloadSize).sum = pieces.flatten.length := by
  have hsizes : (r.packets place number pieces).map payloadSize =
      (r.packets place number pieces).map fun packet => (payload packet).length := by
    refine List.map_congr_left fun packet hpacket => ?_
    exact (full_of_mem_packets hpieces packet hpacket).length_payload.symm
  rw [hsizes, ← flatMap_payload_packets (r := r) place number hpieces,
    List.length_flatMap]

theorem inRow_packets (place number : Nat) (pieces : List (List UInt8)) :
    InRow none (r.packets place number pieces) := by
  have hnumbers : ∀ i packet, (r.packets place number pieces)[i]? = some packet →
      (packet.getD 0 0).toNat = (number + i) % 64 := by
    induction pieces generalizing place number with
    | nil => exact fun i packet h => nomatch h
    | cons chunk rest ih =>
      intro i packet hpacket
      cases i with
      | zero =>
        obtain rfl := Option.some.inj hpacket
        exact toNat_numberAt number
      | succ i =>
        have hcount : number + (i + 1) = number + 1 + i := by omega
        rw [hcount]
        exact ih (place + 1) (number + 1) i packet hpacket
  rw [inRow_none]
  intro i packet hi hpacket
  have hlong : i < (r.packets place number pieces).length := (List.getElem?_eq_some_iff.1 hpacket).1
  have hfirst := hnumbers 0 ((r.packets place number pieces).headD []) (by
    rw [← List.head?_eq_getElem?, List.headD_eq_head?_getD]
    cases hpackets : r.packets place number pieces with
    | nil =>
      rw [hpackets] at hlong
      exact absurd hlong (Nat.not_lt_zero i)
    | cons first rest => rfl)
  rw [hnumbers i packet hpacket, hfirst]
  omega

/-! ## Requests -/

variable {s t : State}

theorem takeWhile_name {name : String} (hname : 0 ∉ Utf8.encode name) (mode : UInt8)
    (extra : List UInt8) :
    let bytes := Utf8.encode name ++ [0x00, 0x80, mode, 0x00] ++ extra
    bytes.takeWhile (· ≠ 0) = Utf8.encode name ∧ (bytes.dropWhile (· ≠ 0)).getD 2 0 = mode := by
  intro bytes
  have hnonzero : ∀ b ∈ Utf8.encode name, decide (b ≠ 0) = true := by
    intro b hb
    exact decide_eq_true fun hzero => hname (hzero ▸ hb)
  have hbytes : bytes = Utf8.encode name ++ ([0x00, 0x80, mode, 0x00] ++ extra) :=
    List.append_assoc _ _ _
  rw [hbytes, List.takeWhile_append_of_pos hnonzero, List.dropWhile_append_of_pos hnonzero]
  exact ⟨List.append_nil _, rfl⟩

theorem obey_openToWrite {name : String} (hname : 0 ∉ Utf8.encode name) (number : UInt8)
    (length : Nat) :
    let choice := r.choice s.sent
    r.obey s (openToWrite number name length) =
      emit { s with phase := .storing (Utf8.encode name) [] 0, token := choice.token }
        (choice.opening choice.declared) := by
  obtain ⟨htake, hmode⟩ := takeWhile_name hname 0x57 (0x04 :: ByteOrder.big.bytes 4 length)
  show r.answerOpen s _ = _
  have hdrop : (openToWrite number name length).drop 5 = Utf8.encode name ++
      [0x00, 0x80, 0x57, 0x00] ++ (0x04 :: ByteOrder.big.bytes 4 length) := by
    simp [openToWrite, openRequest]
  unfold answerOpen
  rw [hdrop, htake, hmode]
  rfl

theorem obey_openToRead {name : String} (hname : 0 ∉ Utf8.encode name) {content : List UInt8}
    (hcontent : s.files (Utf8.encode name) = some content) (number parameters : UInt8) :
    let choice := r.choice s.sent
    r.obey s (openToRead number parameters name) =
      emit { s with
        phase := .serving (r.packets (s.sent + 1) choice.number (chunks 62 content)),
        token := choice.token } (choice.opening content.length) := by
  obtain ⟨htake, hmode⟩ := takeWhile_name hname 0x52 []
  have hdrop : (openToRead number parameters name).drop 5 = Utf8.encode name ++
      [0x00, 0x80, 0x52, 0x00] ++ [] := by
    simp [openToRead, openRequest]
  show r.answerOpen s _ = _
  unfold answerOpen
  rw [hdrop, htake, hmode]
  simp only [hcontent]
  rfl

theorem obey_writeAck (number token packets : UInt8) :
    r.obey s (writeAck number token packets) = s := by
  show (if _ then s else s) = s
  rw [ite_self]

theorem obey_readAck (number packets : UInt8) :
    r.obey s (readAck number s.token packets) = r.proceed s := by
  have hheeds : ¬ (r.strict ∧ s.token ≠ s.token) := fun h => h.2 rfl
  exact if_neg hheeds

theorem obey_release (number : UInt8) :
    r.obey s (releasePacket number s.token) = r.reply { s with phase := .idle } := by
  have hheeds : ¬ (r.strict ∧ s.token ≠ s.token) := fun h => h.2 rfl
  exact if_neg hheeds

theorem obey_endOfData : r.obey s endOfData = r.keep s := rfl

theorem obey_dataPacket (count : Nat) (chunk : List UInt8) :
    r.obey s (dataPacket (numberAt count) chunk) =
      r.takeData s (dataPacket (numberAt count) chunk) := by
  have hcontrol : numberAt count ≠ 0xFF := numberAt_ne count (by decide)
  exact (if_neg hcontrol).trans (if_neg (dataPacket_ne_singleton _ _ _))

theorem payload_dataPacket (number : UInt8) {chunk : List UInt8} (hchunk : chunk.length < 64) :
    payload (dataPacket number chunk) = chunk := by
  have hsize : payloadSize (dataPacket number chunk) = chunk.length := by
    show (UInt8.ofNat chunk.length).toNat % 64 = _
    simp only [UInt8.toNat_ofNat', Nat.reducePow]
    omega
  rw [payload, hsize]
  exact List.take_length

/-- A request that is answered at once, where nothing else was left to read. -/
theorem plays_answered {u : State} {report answer : Report} {rest : List Turn}
    (hobey : r.obey s report = r.reply u) (hanswer : (r.choice u.sent).reply = answer)
    (hunread : u.unread = []) (h : r.device.Plays rest { u with sent := u.sent + 1 } t) :
    r.device.Plays (.say report :: .hear answer :: rest) s t := by
  have hsent : (r.obey s report).unread = [answer] := by
    rw [hobey, ← hanswer]
    show u.unread ++ _ = _
    rw [hunread, List.nil_append]
  refine Device.plays_say (Device.plays_hear hsent ?_)
  rw [hobey, ← hunread]
  exact h

end Simulated

end UniversalRemote.FileTransfer
