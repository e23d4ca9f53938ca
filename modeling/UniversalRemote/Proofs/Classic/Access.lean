import UniversalRemote.Proofs.Classic.Reception
import UniversalRemote.Proofs.Classic.Strictness
import UniversalRemote.Proofs.Link.Access
/-!
# Classic reports within bounds

Every place that a host looks up in a report of a classic remote, in what it compares the report with
and in the tables of packet and block sizes, is looked up here where it may be missing.
`WithinBounds` says that the exchanges are the same.
-/

namespace UniversalRemote.Classic

open Exchange

/-! ## Reports -/

section Reports

def receiveReport (timeout : Nat) : Exchange RemoteError Report := do
  let report ← receive timeout
  if report.isEmpty then refuse (.shortPacket 1 0)
  return report

theorem receiveReport_bind {f : Report → Exchange RemoteError α}
    {g : UInt8 × List UInt8 → Exchange RemoteError α} (timeout : Nat)
    (h : ∀ code body, f (code :: body) = g (code, body)) :
    (receiveReport timeout >>= f) = receivePacket timeout >>= g := by
  unfold receiveReport receivePacket
  rw [bind_assoc, bind_assoc]
  congr 1
  funext report
  cases report with
  | nil => rfl
  | cons code body => exact h code body

def addressBytes? (address : UInt32) : Option (List UInt8) :=
  let low := address &&& 0x00FFFFFF
  if low.toNat < 0x1000000 then some (ByteOrder.big.bytes 3 low.toNat) else none

theorem addressBytes?_eq (address : UInt32) : addressBytes? address = some (addressBytes address) := by
  have hlow : (address &&& 0x00FFFFFF).toNat = address.toNat % 0x1000000 := by
    rw [UInt32.toNat_and]
    exact Nat.and_two_pow_sub_one_eq_mod _ 24
  have hbytes : ByteOrder.big.bytes 3 (address.toNat % 0x1000000) = addressBytes address :=
    congrArg List.reverse (ByteOrder.littleBytes_mod 3 address.toNat)
  unfold addressBytes?
  dsimp only
  rw [hlow, if_pos (Nat.mod_lt _ (by decide)), hbytes]

end Reports

/-! ## State memory -/

section Spaces

/-- The byte in the answer to a reading of a memory, by the places in it. -/
def byteOf? (space : UInt8) (report : Report) : Option (Except ProtocolError UInt8) := do
  let code ← report[0]?
  if report.length < 3 then return .error (.unexpectedResponse code "reading misc byte")
  let answered ← report[1]?
  if code ≠ 0xC2 ∨ answered ≠ space then
    return .error (.unexpectedResponse code "reading misc byte")
  return .ok (← report[2]?)

def wordOf? (space : UInt8) (report : Report) : Option (Except ProtocolError UInt16) := do
  let code ← report[0]?
  if report.length < 4 then return .error (.unexpectedResponse code "reading misc word")
  let answered ← report[1]?
  if kind code ≠ 0xC0 ∨ answered ≠ space then
    return .error (.unexpectedResponse code "reading misc word")
  return .ok (ByteOrder.big.word16 (← slice? report 2 4))

def doneOf? (space : UInt8) (report : Report) : Option (Except ProtocolError Unit) := do
  let code ← report[0]?
  if report.length < 2 then return .error (.unexpectedResponse code "writing misc")
  let answered ← report[1]?
  if kind code ≠ done ∨ answered ≠ space then
    return .error (.unexpectedResponse code "writing misc")
  return .ok ()

def readBytes? (space : UInt8) : UInt8 → Nat → Exchange RemoteError (List UInt8)
  | _, 0 => pure []
  | address, count + 1 => do
    send [0xB2, space, address]
    let value ← checked (byteOf? space (← receiveReport promptWait))
    return value :: (← readBytes? space (address + 1) count)

def readWords? (space : UInt8) : UInt16 → Nat → Exchange RemoteError (List UInt16)
  | _, 0 => pure []
  | address, count + 1 => do
    send (0xB3 :: space :: ByteOrder.big.bytes16 address)
    let value ← checked (wordOf? space (← receiveReport promptWait))
    return value :: (← readWords? space (address + 1) count)

def writeSpace? (code space : UInt8) (body : List UInt8) : Exchange RemoteError Unit := do
  send (code :: space :: body)
  checked (doneOf? space (← receiveReport promptWait))

theorem readBytes?_eq : readBytes? = readBytes := by
  funext space address count
  induction count generalizing address with
  | zero => rfl
  | succ count ih =>
    unfold readBytes? readBytes
    congr 1
    funext _
    refine receiveReport_bind _ fun code body => ?_
    rcases body with _ | ⟨answered, _ | ⟨value, rest⟩⟩
    · rfl
    · rfl
    · have hlong : ¬ (code :: answered :: value :: rest).length < 3 := by
        simp only [List.length_cons]
        omega
      unfold byteOf?
      dsimp only [List.getElem?_cons_zero, List.getElem?_cons_succ, Option.bind_eq_bind,
        Option.bind_some]
      rw [if_neg hlong]
      split
      · rfl
      · rw [← ih]
        rfl

theorem readWords?_eq : readWords? = readWords := by
  funext space address count
  induction count generalizing address with
  | zero => rfl
  | succ count ih =>
    unfold readWords? readWords
    congr 1
    funext _
    refine receiveReport_bind _ fun code body => ?_
    rcases body with _ | ⟨answered, _ | ⟨high, _ | ⟨low, rest⟩⟩⟩
    · rfl
    · rfl
    · rfl
    · have hlong : ¬ (code :: answered :: high :: low :: rest).length < 4 := by
        simp only [List.length_cons]
        omega
      unfold wordOf?
      dsimp only [List.getElem?_cons_zero, List.getElem?_cons_succ, Option.bind_eq_bind,
        Option.bind_some]
      rw [if_neg hlong, slice?_eq (by decide) (Nat.not_lt.1 hlong)]
      split
      · rfl
      · rw [← ih]
        rfl

theorem writeSpace?_eq : writeSpace? = writeSpace := by
  funext code space body
  unfold writeSpace? writeSpace
  congr 1
  funext _
  refine receiveReport_bind _ fun answer body => ?_
  cases body with
  | nil => rfl
  | cons answered rest =>
    have hlong : ¬ (answer :: answered :: rest).length < 2 := by
      simp only [List.length_cons]
      omega
    unfold doneOf?
    dsimp only [List.getElem?_cons_zero, List.getElem?_cons_succ, Option.bind_eq_bind,
      Option.bind_some]
    rw [if_neg hlong]
    split
    · rfl
    · rfl

def timeOfBytes? (state : List UInt8) : Option DateTime := do
  let second ← state[0]?
  let minute ← state[1]?
  let hour ← state[2]?
  let day ← state[3]?
  let month ← state[4]?
  let year ← checkedSum16 2000 (← state[5]?).toUInt16
  return {
    year, hour, minute, second
    month := month + 1
    day := day + 1
    weekday := 7
    offset := 0
    zone := "" }

def readByteClock? : Exchange RemoteError DateTime := do
  ofChecked (timeOfBytes? (← readBytes? stateSpace 0 6))

theorem timeOfBytes?_eq {state : List UInt8} (h : state.length = 6) :
    timeOfBytes? state = some (timeOfBytes state) := by
  match state, h with
  | [second, minute, hour, day, month, year], _ =>
    have hyear := year.toNat_lt
    have hsum : (2000 : UInt16).toNat + year.toUInt16.toNat < 0x10000 := by
      have hbase : (2000 : UInt16).toNat = 2000 := rfl
      rw [UInt8.toNat_toUInt16]
      omega
    show (checkedSum16 2000 year.toUInt16).bind _ = _
    unfold checkedSum16
    rw [if_pos hsum]
    rfl

/-- What is read of a memory has as many bytes as are asked for. -/
theorem readBytes_bind_congr {f g : List UInt8 → Exchange RemoteError α} (space : UInt8)
    (count : Nat) (address : UInt8) (h : ∀ bytes, bytes.length = count → f bytes = g bytes) :
    (readBytes space address count >>= f) = readBytes space address count >>= g := by
  induction count generalizing address f g with
  | zero => exact h [] rfl
  | succ count ih =>
    unfold readBytes
    simp only [bind_assoc]
    congr 1
    funext _
    congr 1
    funext ⟨code, body⟩
    match body with
    | [] | [_] => rfl
    | answered :: value :: rest =>
      dsimp only
      split
      · rfl
      · simp only [bind_assoc, pure_bind]
        exact ih _ fun bytes hbytes => h (value :: bytes) (congrArg (· + 1) hbytes)

theorem readByteClock?_eq {architecture : UInt16} (h : architecture < wordClock) :
    readByteClock? = readClockOf architecture := by
  unfold readByteClock? readClockOf
  rw [if_pos h, readBytes?_eq]
  refine readBytes_bind_congr _ _ _ fun bytes hbytes => ?_
  rw [timeOfBytes?_eq hbytes, ofChecked_some]

end Spaces

/-! ## Reading flash -/

section Reading

def receiveChunk? (framing : Framing) (absorb : τ → Nat → List UInt8 → Exchange RemoteError τ)
    (offset length : Nat) : Nat → Sequence → Nat → τ → Exchange RemoteError τ
  | 0, _, _, _ => stalled
  | patience + 1, sequence, received, state => do
    let report ← receiveReport promptWait
    let code ← ofChecked report[0]?
    if kind code = done then
      if received = length then pure state
      else refuse (.lengthMismatch length received)
    else if kind code ≠ 0x60 then unexpected code "reading flash"
    else if report.length < 2 then refuse (.shortPacket 2 report.length)
    else
      let sequence ← check (sequence.accept (← ofChecked report[1]?))
      let size ← ofChecked framing.payloads[(lengthCode code).toNat]?
      match slice? report 2 (2 + size) with
      | none => refuse (.shortPacket (2 + size) report.length)
      | some payload =>
        if length < received + size then
          refuse (.lengthMismatch length (received + size))
        else
          let state ← absorb state (offset + received) payload
          receiveChunk? framing absorb offset length patience sequence (received + size) state

def transferChunks? (framing : Framing) (absorb : τ → Nat → List UInt8 → Exchange RemoteError τ)
    (stage : Stage) (patience : Nat) (address : UInt32) (length : Nat) :
    Nat → Nat → τ → Exchange RemoteError τ
  | 0, _, state => pure state
  | count + 1, offset, state => do
    let size := min (← ofChecked (difference? length offset)) framing.readSize
    let start ← ofChecked (checkedSum address (UInt32.ofNat offset))
    send (readCommand start size)
    let state ← receiveChunk? framing absorb offset size patience flashSequence 0 state
    progress stage (offset + size) length
    transferChunks? framing absorb stage patience address length count (offset + size) state

def transfer? (framing : Framing) (absorb : τ → Nat → List UInt8 → Exchange RemoteError τ)
    (stage : Stage) (patience : Nat) (address : UInt32) (length : Nat) (state : τ) :
    Exchange RemoteError τ :=
  let count := (length + framing.readSize - 1) / framing.readSize
  transferChunks? framing absorb stage patience address length count 0 state

def readFlash? (framing : Framing) (patience : Nat) (address : UInt32) (length : Nat) :
    Exchange RemoteError (List UInt8) := do
  let payloads ← transfer? framing keep .readFlash patience address length []
  return payloads.reverse.flatten

/-- Holds a payload against its place in all that is expected. -/
def compare? (address : UInt32) (expected : List UInt8) (_ : Unit) (place : Nat)
    (data : List UInt8) : Exchange RemoteError Unit := do
  let window ← ofChecked (slice? expected place (place + data.length))
  match firstDifference data window with
  | none => pure ()
  | some i =>
    let differing ← ofChecked (checkedSum address (UInt32.ofNat (place + i)))
    fail (.mismatch (.byte differing))

def compareFlash? (framing : Framing) (patience : Nat) (address : UInt32)
    (expected : List UInt8) : Exchange RemoteError Unit :=
  transfer? framing (compare? address expected) .compareFlash patience address expected.length ()

theorem payload?_eq (version code : UInt8) :
    (Framing.ofProtocol version).payloads[(lengthCode code).toNat]? =
      some ((Framing.ofProtocol version).payload code) := by
  have hcode : (lengthCode code).toNat < 16 := by
    rw [lengthCode, UInt8.toNat_and]
    exact Nat.lt_of_le_of_lt Nat.and_le_right (by decide)
  have htable : (Framing.ofProtocol version).payloads.length = 16 := by
    unfold Framing.ofProtocol
    split
    · rfl
    · rfl
  exact getElem?_eq_getD (htable ▸ hcode) 0

/-- The payload of a packet stands behind its code and its number. -/
theorem slice?_payload (code number : UInt8) (payload : List UInt8) (size : Nat) :
    slice? (code :: number :: payload) 2 (2 + size) =
      if payload.length < size then none else some (payload.take size) := by
  have hlength : (code :: number :: payload).length = 2 + payload.length :=
    Nat.add_comm payload.length 2
  split
  · exact if_neg (by omega)
  · exact slice?_add (by omega)

/-- Two ways to take in payloads do the same below a place, on states that belong together, and leave
such states behind. -/
structure Follows (related : Nat → σ → τ → Prop) (stop : Nat)
    (absorb : σ → Nat → List UInt8 → Exchange RemoteError σ)
    (absorb? : τ → Nat → List UInt8 → Exchange RemoteError τ) : Prop where
  bind : ∀ {α : Type} {place : Nat} {data : List UInt8} {s : σ} {t : τ}
    {f : σ → Exchange RemoteError α} {g : τ → Exchange RemoteError α},
    related place s t → place + data.length ≤ stop →
      (∀ s t, related (place + data.length) s t → g t = f s) →
        (absorb? t place data >>= g) = absorb s place data >>= f

variable {related : Nat → σ → τ → Prop} {stop : Nat} {version : UInt8}
  {absorb : σ → Nat → List UInt8 → Exchange RemoteError σ}
  {absorb? : τ → Nat → List UInt8 → Exchange RemoteError τ}

theorem follows_keep : Follows (fun _ => Eq) stop keep keep := by
  refine ⟨?_⟩
  rintro α place data s _ f g rfl - hnext
  exact hnext (data :: s) _ rfl

theorem firstDifference_take (data expected : List UInt8) :
    firstDifference data (expected.take data.length) = firstDifference data expected := by
  have hzip : data.zip (expected.take data.length) = data.zip expected := by
    induction data generalizing expected with
    | nil => rfl
    | cons x data ih =>
      cases expected with
      | nil => rfl
      | cons y expected => exact congrArg ((x, y) :: ·) (ih expected)
  rw [firstDifference, hzip]
  rfl

theorem follows_compare (address : UInt32) (expected : List UInt8) :
    Follows (fun place rest (_ : Unit) => rest = expected.drop place) expected.length
      (compare address) (compare? address expected) := by
  refine ⟨?_⟩
  rintro α place data _ t f g rfl hstop hnext
  unfold compare compare?
  rw [slice?_add hstop, ofChecked_some, pure_bind, firstDifference_take]
  cases firstDifference data (expected.drop place) with
  | none =>
    rw [List.drop_drop]
    exact hnext _ () rfl
  | some i =>
    rw [bind_assoc, bind_assoc]
    congr 1

theorem Follows.receiveChunk (h : Follows related stop absorb absorb?) {offset length : Nat}
    (hstop : offset + length ≤ stop) {f : σ → Exchange RemoteError α}
    {g : τ → Exchange RemoteError α} (hnext : ∀ s t, related (offset + length) s t → g t = f s)
    (patience : Nat) :
    ∀ {sequence : Sequence} {received : Nat} {s : σ} {t : τ}, related (offset + received) s t →
      (receiveChunk? (.ofProtocol version) absorb? offset length patience sequence received t >>= g) =
        receiveChunk (.ofProtocol version) absorb offset length patience sequence received s >>= f := by
  induction patience with
  | zero => exact fun _ => rfl
  | succ patience ih =>
    intro sequence received s t hrelated
    unfold receiveChunk? Classic.receiveChunk
    rw [bind_assoc, bind_assoc]
    refine receiveReport_bind _ fun code body => ?_
    rw [List.getElem?_cons_zero, ofChecked_some, pure_bind]
    dsimp only
    split
    · split
      · rename_i hreceived
        subst hreceived
        exact hnext s t hrelated
      · rfl
    split
    · rfl
    cases body with
    | nil => rfl
    | cons number payload =>
      have hlong : ¬ (code :: number :: payload).length < 2 := by
        simp only [List.length_cons]
        omega
      rw [if_neg hlong, List.getElem?_cons_succ, List.getElem?_cons_zero, ofChecked_some, pure_bind]
      dsimp only
      rw [bind_assoc, bind_assoc]
      congr 1
      funext sequence
      rw [payload?_eq, ofChecked_some, pure_bind]
      generalize (Framing.ofProtocol version).payload code = size
      rw [slice?_payload]
      by_cases hshort : payload.length < size
      · have hlength : (code :: number :: payload).length = 2 + payload.length :=
          Nat.add_comm payload.length 2
        rw [if_pos hshort, if_pos hshort, hlength]
        rfl
      · rw [if_neg hshort, if_neg hshort]
        dsimp only
        split
        · rfl
        · rename_i hfits
          have htaken : (payload.take size).length = size :=
            List.length_take_of_le (Nat.not_lt.1 hshort)
          rw [bind_assoc, bind_assoc]
          refine h.bind hrelated (by omega) fun s t hst => ?_
          rw [htaken, Nat.add_assoc] at hst
          exact ih hst

theorem Follows.transferChunks (h : Follows related stop absorb absorb?) {stage : Stage}
    {patience : Nat} {address : UInt32} {f : σ → Exchange RemoteError α}
    {g : τ → Exchange RemoteError α} (hnext : ∀ place s t, related place s t → g t = f s)
    (count : Nat) :
    ∀ {offset : Nat} {s : σ} {t : τ}, offset ≤ stop → related offset s t →
      (transferChunks? (.ofProtocol version) absorb? stage patience address stop count offset t
        >>= g) =
        transferChunks (.ofProtocol version) absorb stage patience address stop count offset s
          >>= f := by
  induction count with
  | zero => exact fun _ hrelated => hnext _ _ _ hrelated
  | succ count ih =>
    intro offset s t hoffset hrelated
    unfold transferChunks? Classic.transferChunks
    rw [difference?_eq hoffset, ofChecked_some, pure_bind]
    simp only [bind_assoc]
    congr 1
    funext start
    congr 1
    funext _
    refine h.receiveChunk (by omega) (fun s t hst => ?_) patience hrelated
    congr 1
    funext _
    exact ih (by omega) hst

theorem readFlash?_eq : readFlash? (.ofProtocol version) = readFlash (.ofProtocol version) := by
  funext patience address length
  unfold readFlash? readFlash
  refine follows_keep.transferChunks (fun _ s t hst => ?_) _ (Nat.zero_le length) rfl
  rw [hst]

theorem compareFlash?_eq :
    compareFlash? (.ofProtocol version) = compareFlash (.ofProtocol version) := by
  funext patience address expected
  rw [← bind_pure (compareFlash? _ _ _ _)]
  exact (follows_compare address expected).transferChunks (f := fun _ => pure ()) (g := pure)
    (fun _ _ _ _ => rfl) _ (Nat.zero_le _) rfl

end Reading

/-! ## Writing flash -/

section Writing

/-- The code and the size of the first block that so many bytes fill, where codes count down with the
sizes; absent behind the last of them. -/
def blockOf? : Nat → List Nat → Nat → Option (Nat × Nat)
  | _, [], _ => none
  | code, size :: sizes, length =>
    if length < size then do blockOf? (← difference? code 1) sizes length
    else some (code, size)

def nextBlock? (table : List Nat) (data : List UInt8) : Option (Report × List UInt8) := do
  let (code, size) ← blockOf? (← table[0]?) table.tail data.length
  let block ← slice? data 0 size
  let rest ← slice? data size data.length
  return ((0x40 ||| UInt8.ofNat code) :: block, rest)

/-- The packets that carry a chunk, within bounds; absent where one would bring it no further. -/
def blockReports? (table : List Nat) (data : List UInt8) : Option (List Report) :=
  if data.isEmpty then some []
  else
    match nextBlock? table data with
    | some (report, rest) =>
      if rest.length < data.length then (blockReports? table rest).map (report :: ·) else none
    | none => none
termination_by data.length

def writeChunks? (framing : Framing) (address : UInt32) (total : Nat) :
    List (List UInt8) → Nat → Exchange RemoteError Unit
  | [], _ => pure ()
  | chunk :: rest, offset => do
    let start ← ofChecked (checkedSum address (UInt32.ofNat offset))
    send (writeCommand start chunk.length)
    sendAll (← ofChecked (blockReports? framing.blockTable chunk))
    send writeDone
    let code ← ofChecked (← receiveReport flashWait)[0]?
    if kind code ≠ done then unexpected code "writing flash"
    progress .writeFlash (offset + chunk.length) total
    writeChunks? framing address total rest (offset + chunk.length)

def writeFlash? (framing : Framing) (address : UInt32) (data : List UInt8) :
    Exchange RemoteError Unit := do
  writeChunks? framing address data.length (← ofChecked (chunks? framing.writeSize data)) 0

theorem blockOf?_eq {code : Nat} {sizes : List Nat} (hcodes : sizes.length ≤ code)
    (hbyte : code < 256) (hpos : ∀ b ∈ Framing.countDown code sizes, 0 < b.2) (length : Nat) :
    blockOf? code sizes length =
      ((Framing.countDown code sizes).find? fun (_, size) => 0 < size && size ≤ length).map
        fun b => (b.1.toNat, b.2) := by
  induction sizes generalizing code with
  | nil => rfl
  | cons size rest ih =>
    rw [List.length_cons] at hcodes
    rw [Framing.countDown, List.forall_mem_cons] at hpos
    rw [blockOf?, Framing.countDown]
    by_cases hfits : length < size
    · rw [if_pos hfits, List.find?_cons_of_neg (by simp [hfits]), difference?_eq (by omega)]
      exact ih (by omega) (by omega) hpos.2
    · have hcode : (UInt8.ofNat code).toNat = code := by
        rw [UInt8.toNat_ofNat', Nat.mod_eq_of_lt hbyte]
      rw [if_neg hfits, List.find?_cons_of_pos (by simp [hpos.1, Nat.not_lt.1 hfits]),
        Option.map_some, hcode]

def Coded (table : List Nat) : Prop :=
  ∃ code sizes, table = code :: sizes ∧ sizes.length ≤ code ∧ code < 256

theorem coded_blockTable (version : UInt8) : Coded (Framing.ofProtocol version).blockTable := by
  unfold Framing.ofProtocol
  split
  · exact ⟨0x07, _, rfl, by decide, by decide⟩
  · exact ⟨0x0A, _, rfl, by decide, by decide⟩

theorem nextBlock?_eq {framing : Framing} (hlawful : framing.Lawful)
    (hcoded : Coded framing.blockTable) {data : List UInt8} {code : UInt8} {size : Nat}
    (hfind : (framing.blocks.find? fun (_, size) => 0 < size && size ≤ data.length) =
      some (code, size)) :
    nextBlock? framing.blockTable data =
      some ((0x40 ||| code) :: data.take size, data.drop size) := by
  have hfits := List.find?_some hfind
  simp only [Bool.and_eq_true, decide_eq_true_eq] at hfits
  obtain ⟨largest, sizes, htable, hcodes, hbyte⟩ := hcoded
  have hblocks : framing.blocks = Framing.countDown largest sizes := by
    rw [Framing.blocks, htable]
  have hpos := hlawful.size_pos
  rw [hblocks] at hpos hfind
  unfold nextBlock?
  rw [htable]
  dsimp only [List.getElem?_cons_zero, Option.bind_eq_bind, Option.bind_some, List.tail_cons]
  rw [blockOf?_eq hcodes hbyte hpos, hfind]
  dsimp only [Option.map_some, Option.bind_some]
  rw [slice?_zero hfits.2, slice?_length hfits.2, UInt8.ofNat_toNat]
  rfl

theorem blockReports?_eq (version : UInt8) (data : List UInt8) :
    blockReports? (Framing.ofProtocol version).blockTable data =
      some (blockReports (Framing.ofProtocol version).blocks data) := by
  have hlawful := lawful_ofProtocol version
  have hcoded := coded_blockTable version
  generalize Framing.ofProtocol version = framing at *
  fun_induction blockReports framing.blocks data with
  | case1 data hnone =>
    -- a block of one byte fits all data that there is
    obtain ⟨b, hb, hone⟩ := hlawful.single_block
    have hempty := List.find?_eq_none.1 hnone b hb
    cases data with
    | nil => rw [blockReports?]; rfl
    | cons byte rest => simp [hone] at hempty
  | case2 data code size hfind ih =>
    have hfits := List.find?_some hfind
    simp only [Bool.and_eq_true, decide_eq_true_eq] at hfits
    have hdata : ¬ data.isEmpty = true := by
      rw [List.isEmpty_iff_length_eq_zero]
      omega
    have hshorter : (data.drop size).length < data.length := by
      rw [List.length_drop]
      omega
    rw [blockReports?, if_neg hdata, nextBlock?_eq hlawful hcoded hfind]
    dsimp only
    rw [if_pos hshorter, ih]
    rfl

theorem writeChunks?_eq (version : UInt8) (address : UInt32) (total : Nat)
    (chunks : List (List UInt8)) (offset : Nat) :
    writeChunks? (.ofProtocol version) address total chunks offset =
      writeChunks (.ofProtocol version) address total chunks offset := by
  induction chunks generalizing offset with
  | nil => rfl
  | cons chunk rest ih =>
    unfold writeChunks? writeChunks
    rw [blockReports?_eq]
    simp only [ofChecked_some, pure_bind, ih]
    congr 1
    funext start
    congr 1
    funext _
    congr 1
    funext _
    congr 1
    funext _
    refine receiveReport_bind _ fun code body => ?_
    rfl

theorem writeFlash?_eq (version : UInt8) :
    writeFlash? (.ofProtocol version) = writeFlash (.ofProtocol version) := by
  funext address data
  unfold writeFlash? writeFlash
  rw [chunks?_eq (lawful_ofProtocol version).writeSize_pos, ofChecked_some, pure_bind,
    writeChunks?_eq]

end Writing

/-! ## Identity -/

section Identifying

def versionOf? (report : Report) : Option (Except ProtocolError Identity) := do
  let code ← report[0]?
  let length := lengthCode code
  if kind code ≠ 0x20 ∨ (length ≠ 7 ∧ length ≠ 5) then
    return .error (.unexpectedResponse code "requesting identity")
  if report.length < 8 then return .error (.shortPacket 8 report.length)
  let bytes ← [1, 2, 3, 4, 5, 6, 7].mapM fun i => report[i]?
  return .ok (identityOf length bytes)

def announce? : Exchange RemoteError Identity := do
  send [0x10]
  checked (versionOf? (← receiveReport promptWait))

theorem announce?_eq : announce? = announce := by
  unfold announce? announce
  congr 1
  funext _
  refine receiveReport_bind _ fun code body => ?_
  unfold versionOf?
  dsimp only [List.getElem?_cons_zero, Option.bind_eq_bind, Option.bind_some]
  split
  · rfl
  match body with
  | [] | [_] | [_, _] | [_, _, _] | [_, _, _, _] | [_, _, _, _, _] | [_, _, _, _, _, _] => rfl
  | b₁ :: b₂ :: b₃ :: b₄ :: b₅ :: b₆ :: b₇ :: rest =>
    have hbody : ¬ (b₁ :: b₂ :: b₃ :: b₄ :: b₅ :: b₆ :: b₇ :: rest).length < 7 := by
      simp only [List.length_cons]
      omega
    have hreport : ¬ (code :: b₁ :: b₂ :: b₃ :: b₄ :: b₅ :: b₆ :: b₇ :: rest).length < 8 := by
      simp only [List.length_cons]
      omega
    rw [if_neg hbody, if_neg hreport]
    rfl

end Identifying

end UniversalRemote.Classic

namespace UniversalRemote

/-- The state of the area that holds the configuration, within bounds. A number is read from at most
eight bytes. -/
def ConfigArea.ofHeader? (map : MemoryMap) (kibibytes : UInt32) (header : List UInt8) :
    Option ConfigArea :=
  if header.length < max map.cookieSize (map.endVector + 3) then some unknown
  else do
    let cookie ← if 1 ≤ map.cookieSize ∧ map.cookieSize ≤ 8 then slice? header 0 map.cookieSize
      else none
    if UInt32.ofNat (ByteOrder.little.value cookie) ≠ map.cookie then return unknown
    let offset ← if map.flashBase ≤ map.configBase then some (map.configBase - map.flashBase)
      else none
    let stop ← slice? (← slice? header map.endVector header.length) 0 3
    return ⟨true, UInt32.ofNat (ByteOrder.little.value stop) - offset + 4,
      flooredDifference (kibibytes <<< 10) offset⟩

theorem ConfigArea.ofHeader?_eq (a : Architecture) (kibibytes : UInt32) (header : List UInt8) :
    ofHeader? a.map kibibytes header = some (ofHeader a.map kibibytes header) := by
  have hcookie : 1 ≤ a.map.cookieSize ∧ a.map.cookieSize ≤ 8 := by cases a <;> decide
  unfold ofHeader? ofHeader
  dsimp only
  rw [if_pos hcookie, if_pos a.flashBase_le]
  split
  · rfl
  · rename_i hlength
    rw [slice?_zero (by omega)]
    dsimp only [Option.bind_eq_bind, Option.bind_some]
    split
    · rfl
    · rw [slice?_length (by omega)]
      dsimp only [Option.bind_some]
      rw [slice?_zero (by rw [List.length_drop]; omega)]
      rfl

namespace Serial

def text? (raw : List UInt8) : Option String := do
  let bytes ← groups.mapM fun positions => positions.mapM fun i => raw[i]?
  let digits := bytes.map (·.flatMap Hex.pair)
  return String.ofList ('\x7b' :: ['-'].intercalate digits ++ ['\x7d'])

def ofBytes? (raw : List UInt8) : Option (List String) :=
  (List.range (raw.length / 16)).mapM fun i => do
    text? (← slice? raw (16 * i) (16 * i + 16))

theorem text?_eq {raw : List UInt8} (h : raw.length = 16) : text? raw = some (text raw) := by
  have hplaces : ∀ positions ∈ groups, ∀ i ∈ positions, i < 16 := by decide
  have hbytes : (groups.mapM fun positions => positions.mapM fun i => raw[i]?) =
      some (grouped raw) := by
    refine mapM_eq_map fun positions hpositions => mapM_eq_map fun i hi => ?_
    exact getElem?_eq_getD (h ▸ hplaces positions hpositions i hi) 0
  unfold text? text
  rw [hbytes]
  dsimp only [Option.bind_eq_bind, Option.bind_some]
  rw [map_group]
  rfl

theorem ofBytes?_eq (raw : List UInt8) : ofBytes? raw = some (ofBytes raw) := by
  refine mapM_eq_map fun i hi => ?_
  have hi := List.mem_range.1 hi
  have hplace : 16 * i + 16 ≤ raw.length := by omega
  rw [slice?_add hplace]
  exact text?_eq (length_take_drop hi)

end Serial

namespace Classic

/-- What a host reads of a classic remote's reports, of its tables and of what it holds them against
is there. -/
structure WithinBounds : Prop where
  announce : announce? = announce
  area : ∀ (a : Architecture) (kibibytes : UInt32) (header : List UInt8),
    ConfigArea.ofHeader? a.map kibibytes header = some (ConfigArea.ofHeader a.map kibibytes header)
  readBytes : readBytes? = readBytes
  readWords : readWords? = readWords
  writeSpace : writeSpace? = writeSpace
  readByteClock : ∀ architecture, architecture < wordClock →
    readByteClock? = readClockOf architecture
  addressBytes : ∀ address, addressBytes? address = some (addressBytes address)
  readFlash : ∀ version, readFlash? (.ofProtocol version) = readFlash (.ofProtocol version)
  compareFlash : ∀ version,
    compareFlash? (.ofProtocol version) = compareFlash (.ofProtocol version)
  writeFlash : ∀ version, writeFlash? (.ofProtocol version) = writeFlash (.ofProtocol version)

theorem withinBounds : WithinBounds where
  announce := announce?_eq
  area := ConfigArea.ofHeader?_eq
  readBytes := readBytes?_eq
  readWords := readWords?_eq
  writeSpace := writeSpace?_eq
  readByteClock := fun _ => readByteClock?_eq
  addressBytes := addressBytes?_eq
  readFlash := fun _ => readFlash?_eq
  compareFlash := fun _ => compareFlash?_eq
  writeFlash := writeFlash?_eq

end Classic

end UniversalRemote
