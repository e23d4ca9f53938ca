import UniversalRemote.Proofs.Parameter.Access
import UniversalRemote.Proofs.Z.Marker
import UniversalRemote.Z.Net
/-!
# Z reports within bounds

Lengths in the reports of a Z remote decide where its host looks next. Here every place is looked up
where it may be missing, and every byte-sized sum may leave its byte; `WithinBounds` says that the
exchanges are the same.
-/

namespace UniversalRemote

namespace Stream

def absorb? (s : Stream) (packet : List UInt8) : Option (Except ProtocolError Stream) :=
  if packet.length < 4 then some (.error (.shortPacket 4 packet.length))
  else do
    let length ← packet[0]?
    if length < 3 then some (.error (.shortPacket 4 packet.length))
    else
      let seq ← packet[2]?
      match s.due.filter (· ≠ seq) with
      | some due => some (.error (.sequenceMismatch due seq))
      | none =>
        let flags ← packet[1]?
        let ack ← packet[3]?
        let payload ← byteDifference? length 3
        let next : Stream := { s with seq, ack, flags, payload }
        some (.ok { next with due := some next.consumed })

theorem absorb?_eq (s : Stream) (packet : List UInt8) :
    s.absorb? packet = some (s.absorb packet) := by
  match packet with
  | [] | [_] | [_, _] | [_, _, _] => rfl
  | length :: flags :: seq :: ack :: rest =>
    have hlong : ¬ (length :: flags :: seq :: ack :: rest).length < 4 := by
      simp only [List.length_cons]
      omega
    rw [absorb_eq]
    unfold absorb?
    rw [if_neg hlong]
    show (if length < 3 then _ else _) = _
    dsimp only
    split
    · rfl
    rename_i hlength
    have hpayload : byteDifference? length 3 = some (length - 3) :=
      if_pos (UInt8.not_lt.1 hlength)
    cases hdue : s.due with
    | none =>
      show Option.bind (byteDifference? length 3) _ = _
      rw [hpayload]
      rfl
    | some due =>
      by_cases hseq : seq = due
      · have hfilter : (some due).filter (· ≠ seq) = none := by simp [hseq]
        show (match (some due).filter (· ≠ seq) with | some _ => _ | none => _) = _
        rw [hfilter]
        dsimp only
        rw [if_pos hseq]
        show Option.bind (byteDifference? length 3) _ = _
        rw [hpayload]
        rfl
      · have hfilter : (some due).filter (· ≠ seq) = some due := by simp [Ne.symm hseq]
        show (match (some due).filter (· ≠ seq) with | some _ => _ | none => _) = _
        rw [hfilter]
        dsimp only
        rw [if_neg hseq]

/-- A packet that has been taken in has its four header bytes, which its length covers. -/
theorem le_of_absorb {s next : Stream} {packet : List UInt8} (h : s.absorb packet = .ok next) :
    4 ≤ packet.length ∧ 3 ≤ (packet.getD 0 0).toNat := by
  rw [absorb_eq] at h
  split at h
  · split at h
    · cases h
    · rename_i hlength
      refine ⟨?_, UInt8.le_iff_toNat_le.1 (UInt8.not_lt.1 hlength)⟩
      simp only [List.length_cons]
      omega
  · cases h

end Stream

namespace Z

open Exchange

/-! ## Datagrams -/

section Datagrams

/-- The report that carries a request, unless its length leaves a byte. -/
def datagram? (command : UInt8) (payload : List UInt8) : Option Report := do
  let length ← byteSum? 3 (UInt8.ofNat payload.length)
  return [length, 0x01, 0x00, command] ++ payload

def Response.ofDatagram? (report : Report) : Option (Except ProtocolError Response) :=
  let length := (report.headD 0).toNat
  if length < 4 ∨ report.length < length + 1 then
    some (.error (.shortPacket (max length 4 + 1) report.length))
  else do
    let data ← slice? report 1 (length + 1)
    let command ← data[2]?
    let status ← data[3]?
    let parameters ← ParameterList.ofDatagram? data
    return parameters.map fun parameters => { command, status, parameters }

def requestDatagram? (command : UInt8) (parameters : ParameterWriter) (timeout : Nat) :
    Exchange RemoteError Response := do
  let payload := if parameters.count = 0 then [] else parameters.finish
  if datagramLimit < payload.length then
    refuse (.invalidArgument
      s!"datagram payload of {payload.length} bytes exceeds {datagramLimit}")
  send (← ofChecked (datagram? command payload))
  checked (Response.ofDatagram? (← receive timeout))

/-- A length that a byte has room for, behind a few header bytes. -/
theorem byteSum?_ofNat {header : UInt8} {n : Nat} (h : header.toNat + n < 256) :
    byteSum? header (UInt8.ofNat n) = some (UInt8.ofNat (header.toNat + n)) := by
  have hn : (UInt8.ofNat n).toNat = n := Nat.mod_eq_of_lt (by omega)
  unfold byteSum?
  rw [hn, if_pos h, UInt8.ofNat_add, UInt8.ofNat_toNat]

theorem datagram?_eq (command : UInt8) {payload : List UInt8}
    (h : payload.length ≤ datagramLimit) :
    datagram? command payload = some (datagram command payload) := by
  unfold datagramLimit at h
  unfold datagram?
  rw [byteSum?_ofNat (show (3 : UInt8).toNat + payload.length < 256 by
    have hthree : (3 : UInt8).toNat = 3 := rfl
    omega)]
  rfl

theorem Response.ofDatagram?_eq (report : Report) :
    Response.ofDatagram? report = some (Response.ofDatagram report) := by
  unfold ofDatagram? ofDatagram
  dsimp only
  split
  · rfl
  · rename_i h
    have hdata : slice? report 1 ((report.headD 0).toNat + 1) =
        some ((report.drop 1).take (report.headD 0).toNat) := by
      rw [Nat.add_comm]
      exact slice?_add (by omega)
    have hlength : ((report.drop 1).take (report.headD 0).toNat).length = (report.headD 0).toNat := by
      rw [List.length_take, List.length_drop]
      omega
    rw [hdata]
    generalize (report.drop 1).take (report.headD 0).toNat = data at hlength ⊢
    dsimp only [Option.bind_eq_bind, Option.bind_some]
    rw [getElem?_eq_getD (show 2 < data.length by omega) 0,
      getElem?_eq_getD (show 3 < data.length by omega) 0, ParameterList.ofDatagram?_eq]
    rfl

theorem requestDatagram?_eq : requestDatagram? = requestDatagram := by
  funext command parameters timeout
  unfold requestDatagram? requestDatagram
  generalize (if parameters.count = 0 then [] else parameters.finish) = payload
  dsimp only
  split
  · rfl
  · rename_i h
    rw [datagram?_eq command (Nat.not_lt.1 h)]
    simp only [Response.ofDatagram?_eq, ofChecked_some, checked_some, pure_bind]

end Datagrams

/-! ## Streams -/

section Streams

def Packet.ofReport? (report : Report) : Option (Except ProtocolError Packet) := do
  let stop := (← report[0]?).toNat + 1
  if report.length < stop then return .error (.shortPacket stop report.length)
  let flags ← report[1]?
  match ← slice? report 4 stop with
  | [] => return .ok ⟨flags, none, 0, []⟩
  | _ :: command :: status :: body => return .ok ⟨flags, some command, status, body⟩
  | _ => return .error (.malformed "truncated stream payload")

theorem Packet.ofReport?_eq {report : Report} (hheader : 4 ≤ report.length)
    (hcovered : 3 ≤ (report.getD 0 0).toNat) : ofReport? report = some (ofReport report) := by
  obtain ⟨length, rest, rfl⟩ : ∃ length rest, report = length :: rest :=
    List.exists_cons_of_length_pos (by omega)
  replace hcovered : 3 ≤ length.toNat := hcovered
  unfold ofReport? ofReport
  dsimp only [List.headD_cons, List.getElem?_cons_zero, Option.bind_eq_bind, Option.bind_some]
  split
  · rfl
  · rename_i h
    rw [getElem?_eq_getD (show 1 < (length :: rest).length by omega) 0,
      slice?_eq (show 4 ≤ length.toNat + 1 by omega) (Nat.not_lt.1 h)]
    dsimp only [Option.bind_some]
    generalize ((length :: rest).take (length.toNat + 1)).drop 4 = payload
    match payload with
    | [] | [_] | [_, _] | _ :: _ :: _ :: _ => rfl

namespace Channel

def sendRequest? (stream : Stream) (command : UInt8) (payload : List UInt8) :
    Exchange RemoteError Stream := do
  if payloadLimit < payload.length then
    refuse (.invalidArgument
      s!"stream payload of {payload.length} bytes exceeds {payloadLimit}")
  let (h, stream) := stream.header 0
  let length ← ofChecked (byteSum? 5 (UInt8.ofNat payload.length))
  send ([length, h.flags, h.seq, h.ack, 0x00, command] ++ payload)
  return stream

def receivePacket? (stream : Stream) (timeout : Nat) : Exchange RemoteError (Packet × Stream) := do
  let report ← receive timeout
  let stream ← checked (stream.absorb? report)
  return (← checked (Packet.ofReport? report), stream)

theorem sendRequest?_eq : sendRequest? = sendRequest := by
  funext stream command payload
  unfold sendRequest? sendRequest
  dsimp only
  split
  · rfl
  · rename_i h
    unfold payloadLimit at h
    have hfive : (5 : UInt8).toNat = 5 := rfl
    rw [byteSum?_ofNat (by omega)]
    rfl

theorem receivePacket?_eq : receivePacket? = receivePacket := by
  funext stream timeout
  unfold receivePacket? receivePacket
  congr 1
  funext report
  rw [Stream.absorb?_eq, checked_some]
  cases habsorb : stream.absorb report with
  | error cause => rfl
  | ok next =>
    obtain ⟨hheader, hcovered⟩ := Stream.le_of_absorb habsorb
    rw [Packet.ofReport?_eq hheader hcovered]
    rfl

end Channel

end Streams

/-! ## Regions over reports -/

section Regions

namespace Carry

/-- What a chunk brings up to the end marker, if there is one to look for and the chunk completes
it. -/
def cut? (carry : Option Carry) (chunk : List UInt8) : Option (Option (List UInt8)) :=
  match carry with
  | none => some none
  | some carry =>
    match UniversalRemote.markerStop (carry ++ chunk) with
    | none => some none
    | some place => do
      let stop ← difference? place carry.length
      return some (← slice? chunk 0 stop)

/-- What to carry on behind a chunk, if there is a marker to look for. -/
def next? (carry : Option Carry) (chunk : List UInt8) : Option (Option Carry) :=
  match carry with
  | none => some none
  | some carry => do
    let window := carry ++ chunk
    let first ← difference? window.length (min window.length 3)
    return some (← slice? window first window.length)

variable {carry : Option Carry} {chunk : List UInt8}

theorem cut?_eq (hcarry : ∀ c ∈ carry, c.length ≤ 3) :
    cut? carry chunk = some ((carry.bind (·.markerStop chunk)).map chunk.take) := by
  cases carry with
  | none => rfl
  | some carry =>
    unfold cut?
    dsimp only [Option.bind_some]
    rw [markerStop]
    cases hstop : UniversalRemote.markerStop (carry ++ chunk) with
    | none => rfl
    | some place =>
      -- a marker is longer than what is carried, so it ends in the chunk
      have hends := (markerStop_eq_some_iff.1 hstop).1
      have hfour := hends.four_le
      have hplace := hends.1
      have hthree := hcarry carry rfl
      rw [List.length_append] at hplace
      dsimp only
      rw [difference?_eq (by omega)]
      dsimp only [Option.bind_eq_bind, Option.bind_some]
      rw [slice?_zero (by omega)]
      rfl

theorem next?_eq : next? carry chunk = some (carry.map (·.next chunk)) := by
  cases carry with
  | none => rfl
  | some carry =>
    have hfirst : (carry ++ chunk).length - min (carry ++ chunk).length 3 =
        (carry ++ chunk).length - 3 := by omega
    unfold next?
    dsimp only
    rw [difference?_eq (Nat.min_le_left _ _), hfirst]
    dsimp only [Option.bind_eq_bind, Option.bind_some]
    rw [slice?_length (Nat.sub_le _ _)]
    rfl

theorem length_next (carry : Carry) (chunk : List UInt8) : (carry.next chunk).length ≤ 3 := by
  have hthree : endMarker.length - 1 = 3 := rfl
  rw [next, hthree, List.length_drop]
  omega

end Carry

def receiveRegion? : Nat → Stream → Option Carry → Nat → List (List UInt8) →
    Exchange RemoteError (List (List UInt8) × Stream)
  | 0, _, _, _, _ => stalled
  | patience + 1, stream, carry, received, past => do
    let (packet, stream) ← Channel.converse stream 0x48 [] promptWait
    if packet.command = some 0x49 then
      if carry.isSome then refuse (.endMarkerNotFound received)
      return (past, stream)
    let chunk ← packet.demand 0x48 "reading region data"
    match ← ofChecked (Carry.cut? carry chunk) with
    | some last => return (last :: past, stream)
    | none =>
      let carry ← ofChecked (Carry.next? carry chunk)
      let received := received + chunk.length
      if regionLimit < received then refuse (.endMarkerNotFound regionLimit)
      progress .fetchRegion received 0
      receiveRegion? patience stream carry received (chunk :: past)

theorem receiveRegion?_eq (patience : Nat) :
    ∀ (stream : Stream) (carry : Option Carry) (received : Nat) (past : List (List UInt8)),
      (∀ c ∈ carry, c.length ≤ 3) →
        receiveRegion? patience stream carry received past =
          receiveRegion patience stream carry received past := by
  induction patience with
  | zero => exact fun _ _ _ _ _ => rfl
  | succ patience ih =>
    intro stream carry received past hcarry
    unfold receiveRegion? receiveRegion
    congr 1
    funext ⟨packet, stream⟩
    dsimp only
    split
    · rfl
    congr 1
    funext chunk
    have hnext : ∀ c ∈ carry.map (·.next chunk), c.length ≤ 3 := by
      intro c hc
      obtain ⟨c, -, rfl⟩ := Option.map_eq_some_iff.1 hc
      exact c.length_next chunk
    rw [Carry.cut?_eq hcarry, Carry.next?_eq]
    simp only [ofChecked_some, pure_bind, ih _ _ _ _ hnext]
    cases carry.bind (·.markerStop chunk) with
    | none => rfl
    | some stop => rfl

def fetchRegion? (patience : Nat) (region : Region) : Exchange RemoteError (List UInt8) := do
  let stream ← Channel.establish
  let stream ← Channel.carryOut stream 0x47 [region.code] "starting region read"
  let carry := if region.isMarked then some [] else none
  let (chunks, stream) ← receiveRegion? patience stream carry 0 []
  Channel.close stream
  return chunks.reverse.flatten

theorem fetchRegion?_eq : fetchRegion? = fetchRegion := by
  funext patience region
  have hcarry : ∀ c ∈ (if region.isMarked then some [] else none : Option Carry), c.length ≤ 3 := by
    intro c hc
    split at hc
    · cases hc
      exact Nat.zero_le 3
    · cases hc
  unfold fetchRegion? fetchRegion
  simp only [receiveRegion?_eq patience _ _ _ _ hcarry]

def confirmImage? (stream : Stream) (region : UInt8) (image : List UInt8) :
    Exchange RemoteError Stream := do
  let (packet, stream) ← Channel.converse stream 0x45 [region] checksumWait
  let body ← packet.demand 0x45 "reading update checksum"
  if body.length < 2 then refuse (.shortPacket 2 body.length)
  let checksum ← ofChecked (slice? body 0 2)
  compareChecksum image (ByteOrder.little.word16 checksum)
  return stream

theorem confirmImage?_eq : confirmImage? = confirmImage := by
  funext stream region image
  unfold confirmImage? confirmImage
  congr 1
  funext ⟨packet, stream⟩
  dsimp only
  congr 1
  funext body
  split
  · rfl
  · rename_i h
    have hword : ByteOrder.little.word16 (body.take 2) = ByteOrder.little.word16 body := by
      rw [ByteOrder.word16, List.take_take]
      rfl
    rw [slice?_zero (Nat.not_lt.1 h), ofChecked_some, pure_bind, hword]

end Regions

/-! ## Messages -/

section Network

def Response.ofMessage? (message : Report) : Option (Except ProtocolError Response) :=
  if message.length < 4 then some (.error (.shortPacket 4 message.length))
  else do
    let command ← message[1]?
    let status ← message[2]?
    let parameters ← ParameterList.parse? message 3 .big
    return parameters.map fun parameters => { command, status := status &&& 0x7F, parameters }

def requestMessage? (command : UInt8) (parameters : ParameterWriter) (timeout : Nat) :
    Exchange RemoteError Response := do
  send ([0x20, command, 0x80] ++ parameters.finish)
  checked (Response.ofMessage? (← receive timeout))

theorem Response.ofMessage?_eq (message : Report) :
    Response.ofMessage? message = some (Response.ofMessage message) := by
  match message with
  | [] | [_] | [_, _] | [_, _, _] => rfl
  | service :: command :: status :: count :: rest =>
    have hlong : ¬ (service :: command :: status :: count :: rest : Report).length < 4 := by
      simp only [List.length_cons]
      omega
    unfold ofMessage? ofMessage ParameterList.ofNetwork
    rw [if_neg hlong, ParameterList.parse?_eq]
    rfl

theorem requestMessage?_eq : requestMessage? = requestMessage := by
  funext command parameters timeout
  unfold requestMessage? requestMessage
  simp only [Response.ofMessage?_eq, checked_some]

theorem piece_bounds {n : Nat} (h : 0 < n) : 0 < Length.piece n ∧ Length.piece n ≤ n := by
  unfold Length.piece
  split
  · omega
  split
  · omega
  split
  · omega
  · omega

def pieces? (image : List UInt8) (written : Nat) : Option (List (List UInt8)) :=
  if written < image.length then do
    let stop := written + Length.piece (image.length - written)
    let piece ← slice? image written stop
    let rest ← pieces? image stop
    return piece :: rest
  else some []
termination_by image.length - written
decreasing_by
  have := piece_bounds (show 0 < image.length - written by omega)
  omega

theorem pieces?_eq (image : List UInt8) (written : Nat) :
    pieces? image written = some (pieces (image.drop written)) := by
  fun_induction pieces? image written with
  | case1 written hwritten stop ih =>
    obtain ⟨hpos, hle⟩ := piece_bounds (show 0 < image.length - written by omega)
    have hstop : stop = written + Length.piece (image.length - written) := rfl
    clear_value stop
    subst hstop
    have hdrop := List.drop_eq_getElem_cons hwritten
    have hleft : (image.drop (written + 1)).length + 1 = image.length - written := by
      rw [List.length_drop]
      omega
    rw [slice?_add (by omega), ih, hdrop, pieces, hleft]
    generalize Length.piece (image.length - written) = size at hpos ⊢
    obtain ⟨size, rfl⟩ : ∃ n, size = n + 1 := ⟨size - 1, by omega⟩
    rw [List.take_succ_cons, Nat.add_sub_cancel, List.drop_drop, Nat.add_right_comm]
    rfl
  | case2 written hwritten =>
    rw [List.drop_eq_nil_of_le (Nat.not_lt.1 hwritten), pieces]

end Network

/-- What a host reads of a Z remote's reports, and cuts out of what it sends, is there. -/
structure WithinBounds : Prop where
  requestDatagram : requestDatagram? = requestDatagram
  requestMessage : requestMessage? = requestMessage
  sendRequest : Channel.sendRequest? = Channel.sendRequest
  receivePacket : Channel.receivePacket? = Channel.receivePacket
  fetchRegion : fetchRegion? = fetchRegion
  confirmImage : confirmImage? = confirmImage
  chunks : ∀ image : List UInt8,
    chunks? Channel.payloadLimit image = some (UniversalRemote.chunks Channel.payloadLimit image)
  pieces : ∀ image, pieces? image 0 = some (pieces image)

theorem withinBounds : WithinBounds where
  requestDatagram := requestDatagram?_eq
  requestMessage := requestMessage?_eq
  sendRequest := Channel.sendRequest?_eq
  receivePacket := Channel.receivePacket?_eq
  fetchRegion := fetchRegion?_eq
  confirmImage := confirmImage?_eq
  chunks := fun _ => chunks?_eq (by decide)
  pieces := fun image => pieces?_eq image 0

end Z

end UniversalRemote
