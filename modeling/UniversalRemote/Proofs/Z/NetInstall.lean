import UniversalRemote.Link.Peer
import UniversalRemote.Proofs.Z.Commitment
import UniversalRemote.Proofs.Z.Terms
/-!
# Updates over a network come to an end

An image is cut into few pieces, each as long as a parameter can be (`length_pieces_le`), and a remote
that carries out what it is asked, and reports the right checksum, has every image installed
(`installNet_obliging`).
-/

namespace UniversalRemote.Z

open Exchange

/-! ## Pieces -/

/-- The number of pieces that less than a kilobyte is cut into at most. -/
def restBudget (rest : Nat) : Nat :=
  if rest = 0 then 0 else if rest < 64 then 1 else if rest < 260 then 2
  else if rest < 512 then 3 else 4

/-- The number of pieces that so many bytes are cut into at most. -/
def pieceBudget (n : Nat) : Nat :=
  n / 1024 + restBudget (n % 1024)

theorem restBudget_le (rest : Nat) : restBudget rest ≤ 4 := by
  unfold restBudget
  split_ifs <;> omega

/-- Behind the piece that is cut off, fewer pieces are left to cut. -/
theorem restBudget_piece {rest : Nat} (hpos : 0 < rest) (hrest : rest < 1024) :
    restBudget (rest - Length.piece rest) + 1 ≤ restBudget rest := by
  unfold Length.piece
  rw [if_neg (by omega)]
  by_cases hhalf : 512 ≤ rest
  · have hleft : restBudget (rest - 512) ≤ 3 := by
      unfold restBudget
      split_ifs <;> omega
    have hfour : restBudget rest = 4 := by
      unfold restBudget
      split_ifs <;> omega
    rw [if_pos hhalf]
    omega
  rw [if_neg hhalf]
  by_cases hsmall : rest < 64
  · rw [if_neg (by omega), Nat.sub_self]
    unfold restBudget
    split_ifs <;> omega
  · -- what is left of four and more is at most three, or 252 fewer
    rw [if_pos (by omega)]
    unfold restBudget
    split_ifs <;> omega

/-- Each piece uses up one of the budget. -/
theorem pieceBudget_piece {n : Nat} (h : 0 < n) :
    pieceBudget (n - Length.piece n) + 1 ≤ pieceBudget n := by
  unfold pieceBudget
  by_cases hfull : 1024 ≤ n
  · have hpiece : Length.piece n = 1024 := if_pos hfull
    have hrest : (n - 1024) % 1024 = n % 1024 := by omega
    rw [hpiece, hrest]
    omega
  · have hbounds := piece_bounds h
    have hzero : (n - Length.piece n) / 1024 = 0 := Nat.div_eq_of_lt (by omega)
    have hleft : (n - Length.piece n) % 1024 = n - Length.piece n := Nat.mod_eq_of_lt (by omega)
    have hn : n % 1024 = n := Nat.mod_eq_of_lt (by omega)
    have hbudget := restBudget_piece h (Nat.not_le.1 hfull)
    rw [hzero, hleft, hn]
    omega

theorem length_pieces_le (data : List UInt8) :
    (pieces data).length ≤ pieceBudget data.length := by
  fun_induction pieces data with
  | case1 => exact Nat.zero_le _
  | case2 b rest size ih =>
    obtain ⟨hpos, -⟩ := piece_bounds (Nat.zero_lt_succ rest.length)
    have hbudget := pieceBudget_piece (Nat.zero_lt_succ rest.length)
    have hleft : (rest.drop (size - 1)).length = rest.length + 1 - size := by
      change 0 < size at hpos
      rw [List.length_drop]
      omega
    rw [hleft] at ih
    exact Nat.le_trans (Nat.succ_le_succ ih) hbudget

/-- The first piece, and the cut of what is left. -/
theorem pieces_eq_cons {data piece : List UInt8} {rest : List (List UInt8)}
    (h : pieces data = piece :: rest) : piece.length = Length.piece data.length ∧ piece ≠ [] ∧
      rest = pieces (data.drop piece.length) := by
  cases data with
  | nil =>
    rw [pieces] at h
    cases h
  | cons b data =>
    obtain ⟨hpos, hle⟩ := piece_bounds (Nat.zero_lt_succ data.length)
    rw [pieces] at h
    obtain ⟨rfl, rfl⟩ := List.cons.inj h
    simp only [List.length_cons]
    generalize Length.piece (data.length + 1) = size at hpos hle ⊢
    obtain ⟨size, rfl⟩ : ∃ n, size = n + 1 := ⟨size - 1, by omega⟩
    have htake : (data.take (size + 1 - 1)).length = size := by
      rw [List.length_take]
      omega
    rw [htake]
    exact ⟨rfl, List.cons_ne_nil _ _, rfl⟩

/-- Each piece is as long as a piece of what is left. -/
theorem length_of_pieces_eq {data piece : List UInt8} {before after : List (List UInt8)}
    (h : pieces data = before ++ piece :: after) :
    piece.length = Length.piece (data.length - before.flatten.length) ∧ piece ≠ [] := by
  induction before generalizing data with
  | nil =>
    obtain ⟨hlength, hne, -⟩ := pieces_eq_cons h
    exact ⟨hlength, hne⟩
  | cons first before ih =>
    obtain ⟨-, -, hrest⟩ := pieces_eq_cons h
    have hlater := ih hrest.symm
    rwa [List.length_drop, Nat.sub_sub, ← List.length_append, ← List.flatten_cons] at hlater

/-! ## Remotes that do as they are asked -/

/-- In certain states, a device takes each request that a message has room for and says that it was
carried out, however long the host would wait. It then is in such a state again. What it reports of
an update is this checksum. -/
structure Obliging (device : Device σ) (ready : σ → Prop) (checksum : UInt16) : Prop where
  takes : ∀ s, ready s → ∀ report command parameters,
    Wire.messages.request report = some (command, parameters) → report.length ≤ Peer.size →
    ∃ t, device.write report s = (.ok (), t) ∧ ∀ timeout, ∃ answer u word,
      device.read timeout t = (.ok answer, u) ∧ ready u ∧
      Wire.messages.answer answer = some ⟨command, statusOk, word⟩ ∧
      (command = 0x45 → word = some checksum)

/-- From a state of the device that is ready to another, an exchange puts these requests and has an
answer. -/
def Obliges (device : Device σ) (ready : σ → Prop) (s : σ) (requests : List (UInt8 × List UInt8))
    (x : Exchange RemoteError α) (post : α → Prop) : Prop :=
  ∃ sent a t, x.Leads device s sent (.ok a) t ∧ ready t ∧ post a ∧
    sent.map Wire.messages.request = requests.map some

theorem ofMessage_of_answer {message : Report} {command : UInt8} {word : Option UInt16}
    (h : Wire.messages.answer message = some ⟨command, statusOk, word⟩) :
    ∃ p, Response.ofMessage message = .ok ⟨command, statusOk, p⟩ ∧ (p.word 0).toOption = word := by
  simp only [Wire.messages] at h
  cases hmessage : Response.ofMessage message with
  | error cause =>
    rw [hmessage] at h
    cases h
  | ok response =>
    obtain ⟨answered, status, p⟩ := response
    rw [hmessage] at h
    obtain ⟨rfl, rfl, hword⟩ := Answer.mk.inj (Option.some.inj h)
    exact ⟨p, rfl, hword⟩

section Obliging

variable {device : Device σ} {ready : σ → Prop} {checksum : UInt16} {s : σ}
  {requests more : List (UInt8 × List UInt8)}

theorem obliges_pure (hs : ready s) {post : α → Prop} {a : α} (h : post a) :
    Obliges device ready s [] (pure a) post :=
  ⟨[], a, s, leads_pure a, hs, h, rfl⟩

theorem obliges_progress (hs : ready s) (stage : Stage) (current total : Nat) :
    Obliges device ready s [] (progress stage current total) fun _ => True :=
  ⟨[], (), s, leads_progress stage current total, hs, trivial, rfl⟩

theorem Obliges.bind {x : Exchange RemoteError α} {f : α → Exchange RemoteError β}
    {middle : α → Prop} {post : β → Prop} (h : Obliges device ready s requests x middle)
    (hf : ∀ t a, ready t → middle a → Obliges device ready t more (f a) post) :
    Obliges device ready s (requests ++ more) (x >>= f) post := by
  obtain ⟨sent, a, t, hx, ht, ha, hsent⟩ := h
  obtain ⟨later, b, u, hrest, hu, hb, hlater⟩ := hf t a ht ha
  refine ⟨sent ++ later, b, u, leads_bind hx hrest, hu, hb, ?_⟩
  rw [List.map_append, List.map_append, hsent, hlater]

variable (h : Obliging device ready checksum) (hs : ready s)
include h hs

theorem obliges_ask {parameters : ParameterWriter} {values : List (List UInt8)}
    (hholds : parameters.Holds values) (hfits : parameters.finish.length ≤ 1027) (command : UInt8)
    (timeout : Nat) (doing : String) :
    Obliges device ready s [(command, values.flatten)]
      (netLink.ask command parameters timeout doing)
      fun p => command = 0x45 → p.word 0 = .ok checksum := by
  have hrequest := request_message hholds command
  have hlength : ([0x20, command, 0x80] ++ parameters.finish).length ≤ Peer.size := by
    rw [List.length_append]
    show 3 + parameters.finish.length ≤ 1600
    omega
  obtain ⟨t, hwrite, hreads⟩ := h.takes s hs _ command values.flatten hrequest hlength
  obtain ⟨answer, u, word, hread, hu, hanswer, hword⟩ := hreads timeout
  obtain ⟨p, hmessage, rfl⟩ := ofMessage_of_answer hanswer
  refine ⟨_, p, u, leads_ask hwrite hread hmessage, hu, fun hcommand => ?_, ?_⟩
  · have hreported := hword hcommand
    cases hp : p.word 0 with
    | error cause =>
      rw [hp] at hreported
      cases hreported
    | ok actual =>
      rw [hp] at hreported
      exact congrArg _ (Option.some.inj hreported)
  · rw [List.map_singleton, hrequest]
    rfl

theorem obliges_callNet {parameters : Except (Halt ProtocolError) ParameterWriter}
    {values : List (List UInt8)} (hmodest : Modest parameters)
    (hholds : ∀ w, parameters = .ok w → w.Holds values) (command : UInt8) (doing : String) :
    Obliges device ready s [(command, values.flatten)] (callNet command parameters doing)
      fun _ => True := by
  obtain ⟨w, rfl, hfits⟩ := hmodest
  obtain ⟨sent, p, t, hleads, ht, -, hsent⟩ :=
    obliges_ask h hs (hholds w rfl) hfits command promptWait doing
  exact ⟨sent, p, t, hleads, ht, trivial, hsent⟩

/-- Each piece is written in one request. -/
theorem obliges_writeNetImage (total : Nat) {pieces : List (List UInt8)}
    (hpieces : ∀ piece ∈ pieces, Modest (netLink.none.bytes piece)) (written : Nat) :
    Obliges device ready s (pieces.map ((0x43, ·))) (writeNetImage total pieces written)
      fun _ => True := by
  induction pieces generalizing s written with
  | nil => exact obliges_pure hs trivial
  | cons piece rest ih =>
    obtain ⟨hpiece, hrest⟩ := List.forall_mem_cons.1 hpieces
    have hholds : ∀ w, netLink.none.bytes piece = .ok w → w.Holds [piece] :=
      fun w => (ParameterWriter.holds_empty .big).bytes
    have hcall := obliges_callNet h hs hpiece hholds 0x43 "writing update data"
    rw [List.flatten_singleton] at hcall
    refine hcall.bind fun t _ ht _ => ?_
    exact (obliges_progress ht _ _ _).bind fun u _ hu _ => ih hu hrest _

theorem obliges_confirmNetImage (region : UInt8) {data : List UInt8}
    (hchecksum : checksum = imageChecksum data) :
    Obliges device ready s [(0x45, [region])] (confirmNetImage region data) fun _ => True := by
  obtain ⟨w, hw, hfits⟩ := modest_byte region
  unfold confirmNetImage
  rw [hw]
  show Obliges device ready s ([(0x45, [region])] ++ []) _ _
  refine (obliges_ask h hs (holds_region hw) hfits 0x45 checksumWait _).bind ?_
  intro t p ht hword
  rw [hword rfl, hchecksum]
  show Obliges device ready t [] (compareChecksum data (imageChecksum data)) _
  unfold compareChecksum
  rw [if_neg (not_not.2 rfl)]
  exact obliges_pure ht trivial

/-- The requests that install an image, with their parameters. -/
def installRequests (image : Image) : List (UInt8 × List UInt8) :=
  (0x41, [image.region.code]) ::
    (0x42, ByteOrder.big.bytes32 (UInt32.ofNat image.data.length) ++ [image.region.code]) ::
    ((pieces image.data).map ((0x43, ·)) ++
      [(0x44, [image.region.code]), (0x45, [image.region.code]), (0x46, [image.region.code])])

theorem obliges_installNet (image : Image) (hreplaceable : image.region.isReplaceable)
    (hchecksum : checksum = imageChecksum image.data) :
    Obliges device ready s (installRequests image) (installNet image) fun _ => True := by
  unfold installNet
  rw [hreplaceable]
  refine Obliges.bind (obliges_callNet h hs (modest_byte _) (fun _ => holds_region) 0x41 _) ?_
  intro s _ hs _
  refine Obliges.bind (obliges_callNet h hs (modest_header _ _) (fun _ => holds_header) 0x42 _) ?_
  intro s _ hs _
  refine (obliges_progress hs _ _ _).bind fun s _ hs _ => ?_
  refine Obliges.bind (obliges_writeNetImage h hs _ (fun _ => modest_piece) _) ?_
  intro s _ hs _
  refine Obliges.bind (obliges_callNet h hs (modest_byte _) (fun _ => holds_region) 0x44 _) ?_
  intro s _ hs _
  refine Obliges.bind (obliges_confirmNetImage h hs _ hchecksum) fun s _ hs _ => ?_
  refine Obliges.bind (obliges_callNet h hs (modest_byte _) (fun _ => holds_region) 0x46 _) ?_
  exact fun s _ hs _ => obliges_progress hs _ _ _

end Obliging

theorem installNet_of_not_replaceable {image : Image} (h : ¬ image.region.isReplaceable)
    (device : Device σ) (s : σ) : (installNet image).Leads device s []
      (.error (.failed (.notOffered .zNet .installConfig))) s := by
  unfold installNet
  rw [Bool.not_eq_true] at h
  rw [h]
  exact leads_throw _

/-- An image is cut into at most four pieces more than it has full kilobytes. None is empty, each has
a length that a parameter can announce, and together they are the image. Against a remote that does as
it is asked, and reports the right checksum, an update of any length ends well, with one request for
each piece. Only safe mode is never replaced: an update of it ends before any request. -/
theorem installNet_obliging (image : Image) :
    ((pieces image.data).flatten = image.data ∧
      (pieces image.data).length ≤ image.data.length / 1024 + 4 ∧
      ∀ before piece after, pieces image.data = before ++ piece :: after →
        piece.length = Length.piece (image.data.length - before.flatten.length) ∧ piece ≠ [] ∧
          ∃ b, Length.encode piece.length = .ok b) ∧
    ∀ {σ : Type} (device : Device σ) (ready : σ → Prop) (s : σ),
      Obliging device ready (imageChecksum image.data) → ready s →
      let run := (installNet image).run.run device s
      if image.region.isReplaceable then run.result = .ok () ∧
        (run.trace.filterMap Step.written?).map Wire.messages.request =
          (installRequests image).map some
      else run.result = .error (.failed (.notOffered .zNet .installConfig)) ∧
        run.trace.filterMap Step.written? = [] := by
  refine ⟨⟨flatten_pieces _, ?_, fun before piece after hcut => ?_⟩, fun device ready s h hs => ?_⟩
  · exact Nat.le_trans (length_pieces_le _) (Nat.add_le_add_left (restBudget_le _) _)
  · obtain ⟨hlength, hne⟩ := length_of_pieces_eq hcut
    exact ⟨hlength, hne, hlength ▸ exists_encode_piece _⟩
  · by_cases hreplaceable : image.region.isReplaceable
    · rw [if_pos hreplaceable]
      obtain ⟨sent, _, t, hleads, -, -, hsent⟩ := obliges_installNet h hs image hreplaceable rfl
      refine ⟨congrArg Prod.fst hleads.ending, ?_⟩
      rw [hleads.sent]
      exact hsent
    · rw [if_neg hreplaceable]
      have hleads := installNet_of_not_replaceable hreplaceable device s
      exact ⟨congrArg Prod.fst hleads.ending, hleads.sent⟩

/-- A remote that says of each request that it was carried out, and reports a checksum. Its state is
the command of the last request. -/
def nodding (checksum : UInt16) : Device UInt8 where
  write report _ := (.ok (), report.getD 1 0)
  read _ command :=
    (.ok ([0x20, command, 0x81, 1, 2] ++ ByteOrder.big.bytes16 checksum), command)

theorem answer_nodding (command : UInt8) (checksum : UInt16) :
    Wire.messages.answer ([0x20, command, 0x81, 1, 2] ++ ByteOrder.big.bytes16 checksum) =
      some ⟨command, statusOk, some checksum⟩ := by
  let reported : ParameterWriter := ⟨.big, [2 :: ByteOrder.big.bytes16 checksum]⟩
  have hlength : (ByteOrder.big.bytes16 checksum).length = 2 := ByteOrder.length_bytes _ _ _
  have hholds : reported.Holds [ByteOrder.big.bytes16 checksum] :=
    (ParameterWriter.holds_empty .big).push (b := 2) hlength.symm rfl
  have hlist : ParameterList.ofNetwork
      ([0x20, command, 0x81, 1, 2] ++ ByteOrder.big.bytes16 checksum) =
      .ok ⟨.big, [ByteOrder.big.bytes16 checksum]⟩ := by
    have hparse := hholds.parse [0x20, command, 0x81] [] .big
    rw [List.append_nil] at hparse
    exact hparse
  have hword : (⟨.big, [ByteOrder.big.bytes16 checksum]⟩ : ParameterList).word 0 = .ok checksum :=
    Parameter.isRead_of_bytes (v := .word checksum) trivial rfl
  have hmessage : Response.ofMessage ([0x20, command, 0x81, 1, 2] ++ ByteOrder.big.bytes16 checksum) =
      .ok ⟨command, statusOk, ⟨.big, [ByteOrder.big.bytes16 checksum]⟩⟩ := by
    have hstatus : (0x81 : UInt8) &&& 0x7F = statusOk := by decide
    rw [ofMessage_of_le (by simp), hlist, ← hstatus]
    rfl
  simp only [Wire.messages, hmessage, hword]
  rfl

theorem obliging_nodding (checksum : UInt16) :
    Obliging (nodding checksum) (fun _ => True) checksum := by
  refine ⟨fun s _ report command parameters hrequest _ => ⟨command, ?_, fun timeout => ?_⟩⟩
  · simp only [Wire.messages] at hrequest
    split at hrequest
    · cases hrequest
      rfl
    · cases hrequest
  · exact ⟨_, command, some checksum, rfl, trivial, answer_nodding command checksum, fun _ => rfl⟩

/-- Seventy bytes, in a piece of 68 and one of two. -/
theorem installNet_obliging_seventy_bytes :
    let image := Image.ofConfig (List.replicate 70 0x5A)
    Obliging (nodding (imageChecksum image.data)) (fun _ => True) (imageChecksum image.data) ∧
      ((installNet image).run.run (nodding (imageChecksum image.data)) 0).result = .ok () := by
  intro image
  have hobliging := obliging_nodding (imageChecksum image.data)
  exact ⟨hobliging, ((installNet_obliging image).2 (nodding _) (fun _ => True) 0 hobliging trivial).1⟩

end UniversalRemote.Z
