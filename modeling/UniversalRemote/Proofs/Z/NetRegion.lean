import UniversalRemote.Proofs.Link.Scripted
import UniversalRemote.Proofs.Z.Message
/-!
# Reading a region over the network

What a remote sends while a region is read is described here without the host: it announces a length,
and serves chunks until so many bytes have arrived. `fetchNetRegion_eq_ok_iff` says that a region is
read from exactly these messages, which bytes it then has, and what is written meanwhile.
-/

namespace UniversalRemote.Z

open Exchange

def startRequest (region : Region) : Report :=
  [0x20, 0x47, 0x80, 1, 1, region.code]

def dataRequest : Report :=
  [0x20, 0x48, 0x80, 0]

def doneRequest : Report :=
  [0x20, 0x49, 0x80, 0]

/-- What a remote has sent of a region. -/
structure NetReading where
  announcement : Report
  /-- The messages that bring a chunk each. -/
  served : List Report

namespace NetReading

variable (r : NetReading)

def length : Nat :=
  ByteOrder.big.value ((brought r.announcement).take 4)

def data : List UInt8 :=
  r.served.flatMap brought

def reports : List Report :=
  r.announcement :: r.served

def written (region : Region) : List Report :=
  startRequest region :: List.replicate r.served.length dataRequest

/-- A length has been announced, and no chunk is empty. -/
structure Begun : Prop where
  announcement : CarriesOut 0x47 r.announcement
  announced : 4 ≤ (brought r.announcement).length
  served : ∀ message ∈ r.served, CarriesOut 0x48 message ∧ brought message ≠ []

/-- As many bytes as announced have arrived, and the remote has confirmed the end. -/
structure Completed (closing : Report) : Prop extends r.Begun where
  length : r.data.length = r.length
  closing : CarriesOut 0x49 closing

/-- The next chunk is empty, or has more bytes than are missing. -/
structure Spoiled (last : Report) : Prop extends r.Begun where
  missing : r.data.length < r.length
  carried : CarriesOut 0x48 last
  present : parametersOf last ≠ []
  unfit : brought last = [] ∨ r.length < r.data.length + (brought last).length

def extend (message : Report) : NetReading :=
  { r with served := r.served ++ [message] }

variable {r} {message : Report}

theorem length_extend : (r.extend message).length = r.length := rfl

theorem data_extend : (r.extend message).data = r.data ++ brought message := by
  simp [data, extend]

theorem length_data_extend :
    (r.extend message).data.length = r.data.length + (brought message).length := by
  rw [data_extend, List.length_append]

theorem chunks_extend : ((r.extend message).served.map brought).reverse =
    brought message :: (r.served.map brought).reverse := by
  simp [extend]

theorem written_extend (region : Region) :
    (r.extend message).written region = r.written region ++ [dataRequest] := by
  simp [written, extend, List.replicate_succ']

theorem Begun.extend (h : r.Begun) (hmessage : CarriesOut 0x48 message)
    (hchunk : brought message ≠ []) : (r.extend message).Begun := by
  refine ⟨h.announcement, h.announced, fun other hother => ?_⟩
  rcases List.mem_append.1 hother with hserved | hlast
  · exact h.served other hserved
  · obtain rfl := List.mem_singleton.1 hlast
    exact ⟨hmessage, hchunk⟩

/-- Each chunk has at least a byte. -/
theorem Begun.served_le (h : r.Begun) : r.served.length ≤ r.data.length := by
  have hsum : ∀ served : List Report, (∀ message ∈ served, brought message ≠ []) →
      served.length ≤ (served.flatMap brought).length := by
    intro served hserved
    induction served with
    | nil => exact Nat.le_refl 0
    | cons message rest ih =>
      obtain ⟨hmessage, hrest⟩ := List.forall_mem_cons.1 hserved
      have hpos := List.length_pos_iff.2 hmessage
      have := ih hrest
      rw [List.length_cons, List.flatMap_cons, List.length_append]
      omega
  exact hsum r.served fun message hmessage => (h.served message hmessage).2

end NetReading

/-! ## Whatever is sent -/

/-- The steps so far have read what has been sent of a region. -/
structure Heard (region : Region) (past : List Step) (r : NetReading) : Prop extends r.Begun where
  answers : past.filterMap Step.answer? = r.reports.map .ok
  written : past.filterMap Step.written? = r.written region

/-- Data is asked for while bytes are missing. -/
def Asks (region : Region) (past : List Step) (report : Report) : Prop :=
  report = dataRequest → ∃ r, Heard region past r ∧ r.data.length < r.length

variable {region : Region} {past : List Step} {r : NetReading}

theorem Heard.told (h : Heard region past r) (event : Event) :
    Heard region (past ++ [.told event]) r := by
  refine ⟨h.toBegun, ?_, ?_⟩
  · rw [List.filterMap_append, h.answers]
    exact List.append_nil _
  · rw [List.filterMap_append, h.written]
    exact List.append_nil _

theorem Heard.extend (h : Heard region past r) {message : Report} (hmessage : CarriesOut 0x48 message)
    (hchunk : brought message ≠ []) (timeout : Nat) :
    Heard region (past ++ [.wrote dataRequest (.ok ())] ++ [.read timeout (.ok message)])
      (r.extend message) := by
  refine ⟨h.toBegun.extend hmessage hchunk, ?_, ?_⟩
  · rw [List.append_assoc, List.filterMap_append, h.answers]
    show _ = (r.reports ++ [message]).map Except.ok
    rw [List.map_append]
    rfl
  · rw [List.append_assoc, List.filterMap_append, h.written, NetReading.written_extend]
    rfl

/-- The loop ends when no byte is missing, and comes to this before its rounds are used up. -/
theorem ensures_receiveNetRegion (answers : Nat) (h : Heard region past r)
    (hroom : r.data.length ≤ r.length) (henough : r.length ≤ r.data.length + answers) :
    (receiveNetRegion r.length answers r.data.length (r.served.map brought).reverse).Ensures
      (Asks region) (fun later chunks => ∃ r, Heard region later r ∧ r.data.length = r.length ∧
        chunks = (r.served.map brought).reverse) past := by
  induction answers generalizing past r with
  | zero => exact ensures_pure ⟨r, h, Nat.le_antisymm hroom henough, rfl⟩
  | succ answers ih =>
    unfold receiveNetRegion
    by_cases hdone : r.length ≤ r.data.length
    · rw [if_pos hdone]
      exact ensures_pure ⟨r, h, Nat.le_antisymm hroom hdone, rfl⟩
    rw [if_neg hdone]
    refine ensures_bind (ensures_message (fun _ => ⟨r, h, Nat.not_le.1 hdone⟩) ?_)
    intro message hmessage
    refine ensures_bind (ensures_check fun chunk hchunk => ?_)
    obtain ⟨-, rfl⟩ := bytes_parametersOf.1 hchunk
    dsimp only
    by_cases hunfit : (brought message).isEmpty ∨
        r.length < r.data.length + (brought message).length
    · rw [if_pos hunfit]
      exact ensures_throw _
    rw [if_neg hunfit]
    obtain ⟨hne, hfits⟩ := not_or.1 hunfit
    replace hne : brought message ≠ [] := mt List.isEmpty_iff.2 hne
    have hextend := h.extend hmessage hne promptWait
    refine ensures_bind (ensures_notify ?_)
    rw [← NetReading.length_data_extend, ← NetReading.chunks_extend]
    refine ih (hextend.told _) ?_ ?_
    · rw [NetReading.length_data_extend, NetReading.length_extend]
      exact Nat.not_lt.1 hfits
    · have hpos := List.length_pos_iff.2 hne
      rw [NetReading.length_data_extend, NetReading.length_extend]
      omega

theorem ensures_fetchNetRegion (region : Region) :
    (fetchNetRegion region).Ensures (Asks region) (fun later data => ∃ r closing,
      NetReading.Completed r closing ∧ r.data = data ∧
        later.filterMap Step.answer? = (r.reports ++ [closing]).map .ok ∧
        later.filterMap Step.written? = r.written region ++ [doneRequest]) [] := by
  unfold fetchNetRegion
  refine ensures_bind (ensures_message (fun h => nomatch h) fun announcement hannouncement => ?_)
  refine ensures_bind (ensures_check fun total htotal => ?_)
  obtain ⟨hannounced, rfl⟩ := dword_parametersOf.1 htotal
  rw [ByteOrder.big.toNat_word32 hannounced]
  let r : NetReading := ⟨announcement, []⟩
  have hbegun : r.Begun := ⟨hannouncement, hannounced, nofun⟩
  refine (ensures_receiveNetRegion (r := r) r.length ⟨hbegun, ?_, ?_⟩ (Nat.zero_le _)
    (Nat.le_add_left _ _)).bind ?_
  · rfl
  · rfl
  rintro past _ ⟨r, hheard, hlength, rfl⟩
  refine ensures_bind (ensures_message (fun h => nomatch h) fun closing hclosing => ensures_pure ?_)
  refine ⟨r, closing, ⟨hheard.toBegun, hlength, hclosing⟩, ?_, ?_, ?_⟩
  · rw [List.reverse_reverse]
    exact List.flatMap_def
  · rw [List.append_assoc, List.filterMap_append, hheard.answers, List.map_append]
    rfl
  · rw [List.append_assoc, List.filterMap_append, hheard.written]
    rfl

/-! ## Messages that are known -/

theorem exists_leads_message {s : Script} {message : Report} {rest : List ScriptedRead}
    (hreads : s.reads = .report message :: rest) (hwrites : ∀ n, s.failures n = none)
    {command : UInt8} (hmessage : CarriesOut command message) (parameters : ParameterWriter)
    (timeout : Nat) (doing : String) :
    ∃ t : Script, t.reads = rest ∧ (∀ n, t.failures n = none) ∧
      (netLink.ask command parameters timeout doing).Leads Script.device s
        [[0x20, command, 0x80] ++ parameters.finish] (.ok ⟨.big, parametersOf message⟩) t := by
  refine ⟨{ s with reads := rest, writes := s.writes + 1 }, rfl, hwrites, ?_⟩
  refine leads_ask (t := { s with writes := s.writes + 1 }) ?_ ?_ (ofMessage_eq_ok_iff.2 ⟨hmessage, rfl⟩)
  · simp only [Script.device, Script.write, hwrites]
  · simp only [Script.device, Script.read, hreads]

section Chunks

variable {device : Device σ} {s t u : σ} {total answers received : Nat} {chunks : List (List UInt8)}
  {message : Report} {more : List Report} {result : Except (Halt RemoteError) (List (List UInt8))}

theorem leads_receiveNetRegion_done (h : total ≤ received) :
    (receiveNetRegion total answers received chunks).Leads device s [] (.ok chunks) s := by
  cases answers with
  | zero => exact leads_pure chunks
  | succ answers =>
    unfold receiveNetRegion
    rw [if_pos h]
    exact leads_pure chunks

variable (hasked : (netLink.ask 0x48 netLink.none promptWait "reading region data").Leads device s
  [dataRequest] (.ok ⟨.big, parametersOf message⟩) t)
include hasked

theorem leads_receiveNetRegion_chunk (hchunk : brought message ≠ [])
    (hfits : received + (brought message).length ≤ total)
    (hrest : (receiveNetRegion total answers (received + (brought message).length)
      (brought message :: chunks)).Leads device t more result u) :
    (receiveNetRegion total (answers + 1) received chunks).Leads device s (dataRequest :: more)
      result u := by
  have hpos := List.length_pos_iff.2 hchunk
  have hpresent : parametersOf message ≠ [] := by
    intro hnone
    exact hchunk (congrArg (List.headD · []) hnone)
  unfold receiveNetRegion
  rw [if_neg (by omega)]
  refine leads_bind_cons hasked ?_
  rw [bytes_parametersOf.2 ⟨hpresent, rfl⟩]
  refine leads_bind_silent (leads_pure _) ?_
  dsimp only
  rw [if_neg (not_or.2 ⟨mt List.isEmpty_iff.1 hchunk, by omega⟩)]
  exact leads_bind_silent (leads_progress _ _ _) hrest

theorem leads_receiveNetRegion_spoiled (hmissing : received < total)
    (hpresent : parametersOf message ≠ [])
    (hunfit : brought message = [] ∨ total < received + (brought message).length) :
    (receiveNetRegion total (answers + 1) received chunks).Leads device s [dataRequest]
      (.error (.failed (.protocol (.lengthMismatch total (received + (brought message).length)))))
      t := by
  unfold receiveNetRegion
  rw [if_neg (by omega)]
  refine leads_bind_cons hasked ?_
  rw [bytes_parametersOf.2 ⟨hpresent, rfl⟩]
  refine leads_bind_silent (leads_pure _) ?_
  dsimp only
  rw [if_pos (hunfit.imp_left List.isEmpty_iff.2)]
  exact leads_throw _

end Chunks

/-- The chunks that are served go by, one for each round of the loop. -/
theorem exists_leads_served {served : List Report} {s : Script} {rest : List ScriptedRead}
    {total answers received : Nat} (chunks : List (List UInt8))
    (hserved : ∀ message ∈ served, CarriesOut 0x48 message ∧ brought message ≠ [])
    (hreads : s.reads = served.map .report ++ rest) (hwrites : ∀ n, s.failures n = none)
    (hroom : received + (served.flatMap brought).length ≤ total)
    (henough : total ≤ received + answers) :
    ∃ (t : Script) (left : Nat), t.reads = rest ∧ (∀ n, t.failures n = none) ∧
      total ≤ received + (served.flatMap brought).length + left ∧
      ∀ more result u, (receiveNetRegion total left (received + (served.flatMap brought).length)
          ((served.map brought).reverse ++ chunks)).Leads Script.device t more result u →
        (receiveNetRegion total answers received chunks).Leads Script.device s
          (List.replicate served.length dataRequest ++ more) result u := by
  induction served generalizing s answers received chunks with
  | nil => exact ⟨s, answers, hreads, hwrites, henough, fun _ _ _ h => h⟩
  | cons message served ih =>
    obtain ⟨⟨hmessage, hchunk⟩, hlater⟩ := List.forall_mem_cons.1 hserved
    have hpos := List.length_pos_iff.2 hchunk
    rw [List.flatMap_cons, List.length_append, ← Nat.add_assoc] at hroom ⊢
    obtain ⟨answers, rfl⟩ : ∃ n, answers = n + 1 := ⟨answers - 1, by omega⟩
    obtain ⟨next, hnext, hnextWrites, hasked⟩ := exists_leads_message hreads hwrites hmessage
      netLink.none promptWait "reading region data"
    have hanswers : total ≤ received + (brought message).length + answers := by omega
    obtain ⟨t, left, ht, htWrites, hleft, hgoesOn⟩ :=
      ih (brought message :: chunks) hlater hnext hnextWrites hroom hanswers
    refine ⟨t, left, ht, htWrites, hleft, fun more result u h => ?_⟩
    refine leads_receiveNetRegion_chunk hasked hchunk (by omega) (hgoesOn more result u ?_)
    rwa [List.map_cons, List.reverse_cons, List.append_assoc] at h

section Reading

variable {s : Script} {rest : List ScriptedRead} {closing last : Report}

/-- Behind what has been sent, the loop stands before its next round, and the region is read as it
then ends. -/
theorem NetReading.Begun.exists_leads (h : r.Begun) (region : Region)
    (hreads : s.reads = r.reports.map .report ++ rest) (hwrites : ∀ n, s.failures n = none)
    (hroom : r.data.length ≤ r.length) :
    ∃ (first t : Script) (left : Nat), t.reads = rest ∧ (∀ n, t.failures n = none) ∧
      r.length ≤ r.data.length + left ∧
      (∀ more result u, (receiveNetRegion r.length left r.data.length
          (r.served.map brought).reverse).Leads Script.device t more result u →
        (receiveNetRegion r.length r.length 0 []).Leads Script.device first
          (List.replicate r.served.length dataRequest ++ more) result u) ∧
      ∀ more result u, (receiveNetRegion r.length r.length 0 [] >>= fun chunks => do
          let _ ← callNet 0x49 (.ok netLink.none) "ending region read"
          return chunks.reverse.flatten).Leads Script.device first more result u →
        (fetchNetRegion region).Leads Script.device s (startRequest region :: more) result u := by
  obtain ⟨first, hfirst, hfirstWrites, hasked⟩ := exists_leads_message hreads hwrites
    h.announcement ⟨.big, [[1, region.code]]⟩ promptWait "starting region read"
  have hfits : 0 + (r.served.flatMap brought).length ≤ r.length := by rwa [Nat.zero_add]
  obtain ⟨t, left, ht, htWrites, hleft, hloop⟩ :=
    exists_leads_served [] h.served hfirst hfirstWrites hfits (Nat.le_add_left r.length 0)
  rw [Nat.zero_add] at hleft hloop
  rw [List.append_nil] at hloop
  refine ⟨first, t, left, ht, htWrites, hleft, hloop, fun more result u hrest => ?_⟩
  refine leads_bind_cons hasked ?_
  rw [dword_parametersOf.2 ⟨h.announced, rfl⟩]
  refine leads_bind_silent (leads_pure _) ?_
  dsimp only
  rw [ByteOrder.big.toNat_word32 h.announced]
  exact hrest

theorem NetReading.Completed.exists_leads (h : r.Completed closing) (region : Region)
    (hreads : s.reads = (r.reports ++ [closing]).map .report ++ rest)
    (hwrites : ∀ n, s.failures n = none) :
    ∃ t, (fetchNetRegion region).Leads Script.device s (r.written region ++ [doneRequest])
      (.ok r.data) t := by
  rw [List.map_append, List.append_assoc] at hreads
  obtain ⟨first, next, left, hnext, hnextWrites, -, hloop, hfetch⟩ :=
    h.toBegun.exists_leads region hreads hwrites (Nat.le_of_eq h.length)
  obtain ⟨t, -, -, hasked⟩ := exists_leads_message hnext hnextWrites h.closing netLink.none promptWait
    "ending region read"
  have hdone := hloop _ _ _ (leads_receiveNetRegion_done (Nat.le_of_eq h.length.symm))
  rw [List.append_nil] at hdone
  have hdata : r.data = (r.served.map brought).reverse.reverse.flatten := by
    rw [List.reverse_reverse]
    exact List.flatMap_def.symm
  refine ⟨t, hfetch _ _ _ (leads_bind hdone ?_)⟩
  rw [hdata]
  exact leads_bind_cons hasked (leads_pure _)

theorem NetReading.Spoiled.exists_leads (h : r.Spoiled last) (region : Region)
    (hreads : s.reads = (r.reports ++ [last]).map .report ++ rest)
    (hwrites : ∀ n, s.failures n = none) :
    ∃ t, (fetchNetRegion region).Leads Script.device s (r.written region ++ [dataRequest])
      (.error (.failed (.protocol
        (.lengthMismatch r.length (r.data.length + (brought last).length))))) t := by
  have hmissing := h.missing
  rw [List.map_append, List.append_assoc] at hreads
  obtain ⟨first, next, left, hnext, hnextWrites, hleft, hloop, hfetch⟩ :=
    h.toBegun.exists_leads region hreads hwrites (Nat.le_of_lt h.missing)
  obtain ⟨left, rfl⟩ : ∃ n, left = n + 1 := ⟨left - 1, by omega⟩
  obtain ⟨t, -, -, hasked⟩ := exists_leads_message hnext hnextWrites h.carried netLink.none promptWait
    "reading region data"
  have hspoiled := hloop _ _ _
    (leads_receiveNetRegion_spoiled hasked h.missing h.present h.unfit)
  exact ⟨t, hfetch _ _ _ (leads_bind_error hspoiled _)⟩

end Reading

/-- A region is read exactly if the script begins with messages that announce its length, bring as
many bytes in chunks that are not empty, and confirm the end. Those are the messages that the host
takes. Whatever is sent, each request for data stands behind answers that leave bytes missing, so
there are no more of them than bytes. A chunk that is empty or too long ends the reading. -/
theorem fetchNetRegion_eq_ok_iff (region : Region) (s : Script)
    (hwrites : ∀ n, s.failures n = none) :
    let run := (fetchNetRegion region).run.run Script.device s
    (∀ data, run.result = .ok data ↔ ∃ r closing, NetReading.Completed r closing ∧ r.data = data ∧
      ∃ rest, s.reads = (r.reports ++ [closing]).map .report ++ rest) ∧
    (∀ data, run.result = .ok data → ∃ r closing, NetReading.Completed r closing ∧ r.data = data ∧
      s.reads = (r.reports ++ [closing]).map .report ++ run.state.reads ∧
      run.trace.filterMap Step.written? = r.written region ++ [doneRequest] ∧
      data.length = r.length ∧ r.served.length ≤ r.length) ∧
    (∀ before outcome after, run.trace = before ++ .wrote dataRequest outcome :: after →
      ∃ r : NetReading, r.Begun ∧ before.filterMap Step.answer? = r.reports.map .ok ∧
        before.filterMap Step.written? = r.written region ∧
        r.data.length < r.length ∧ r.served.length < r.length) ∧
    ∀ r last rest, NetReading.Spoiled r last →
      s.reads = (r.reports ++ [last]).map .report ++ rest →
      run.result = .error (.failed (.protocol
        (.lengthMismatch r.length (r.data.length + (brought last).length)))) ∧
      run.trace.filterMap Step.written? = r.written region ++ [dataRequest] := by
  intro run
  obtain ⟨hpost, hobeys⟩ := Program.Ensures.run (ensures_fetchNetRegion region) Script.device s
  have hsound : ∀ data, run.result = .ok data → ∃ r closing, NetReading.Completed r closing ∧
      r.data = data ∧ s.reads = (r.reports ++ [closing]).map .report ++ run.state.reads ∧
      run.trace.filterMap Step.written? = r.written region ++ [doneRequest] ∧
      data.length = r.length ∧ r.served.length ≤ r.length := by
    intro data hresult
    obtain ⟨r, closing, hcompleted, rfl, hanswers, hwritten⟩ := hpost data hresult
    refine ⟨r, closing, hcompleted, rfl, Script.reads_of_run _ s hanswers, hwritten,
      hcompleted.length, ?_⟩
    rw [← hcompleted.length]
    exact hcompleted.served_le
  refine ⟨fun data => ⟨fun hresult => ?_, ?_⟩, hsound, ?_, ?_⟩
  · obtain ⟨r, closing, hcompleted, hdata, hreads, -⟩ := hsound data hresult
    exact ⟨r, closing, hcompleted, hdata, _, hreads⟩
  · rintro ⟨r, closing, hcompleted, rfl, rest, hreads⟩
    obtain ⟨t, hleads⟩ := hcompleted.exists_leads region hreads hwrites
    exact congrArg Prod.fst hleads.ending
  · intro before outcome after htrace
    obtain ⟨r, hheard, hmissing⟩ := hobeys before dataRequest outcome after htrace rfl
    exact ⟨r, hheard.toBegun, hheard.answers, hheard.written, hmissing,
      Nat.lt_of_le_of_lt hheard.served_le hmissing⟩
  · intro r last rest hspoiled hreads
    obtain ⟨t, hleads⟩ := hspoiled.exists_leads region hreads hwrites
    exact ⟨congrArg Prod.fst hleads.ending, hleads.sent⟩

/-- Three bytes in two chunks, and two of them behind which too many follow. -/
theorem fetchNetRegion_eq_ok_three_bytes :
    let announcement : Report := [0x20, 0x47, 0x81, 1, 4, 0, 0, 0, 3]
    let chunk : Report := [0x20, 0x48, 0x81, 1, 2, 0xAA, 0xBB]
    let s : Script := { reads := [.report announcement, .report chunk,
      .report [0x20, 0x48, 0x01, 2, 1, 0xCC, 0], .report [0x20, 0x49, 0x81, 0], .silence] }
    let long : Script := { reads := [.report announcement, .report chunk, .report chunk] }
    (∀ n, s.failures n = none) ∧
      ((fetchNetRegion .userConfig).run.run Script.device s).result = .ok [0xAA, 0xBB, 0xCC] ∧
      ((fetchNetRegion .userConfig).run.run Script.device long).result =
        .error (.failed (.protocol (.lengthMismatch 3 4))) := by
  intro announcement chunk s long
  have hannouncement : CarriesOut 0x47 announcement := ⟨by decide, rfl, by decide, by decide⟩
  have hchunk : CarriesOut 0x48 chunk := ⟨by decide, rfl, by decide, by decide⟩
  have hlast : CarriesOut 0x48 [0x20, 0x48, 0x01, 2, 1, 0xCC, 0] := ⟨by decide, rfl, by decide, by decide⟩
  refine ⟨fun _ => rfl, ?_, ?_⟩
  · let r : NetReading := ⟨announcement, [chunk, [0x20, 0x48, 0x01, 2, 1, 0xCC, 0]]⟩
    have hbegun : r.Begun := by
      refine ⟨hannouncement, by decide, List.forall_mem_cons.2 ⟨⟨hchunk, by decide⟩, ?_⟩⟩
      exact List.forall_mem_singleton.2 ⟨hlast, by decide⟩
    refine ((fetchNetRegion_eq_ok_iff .userConfig s fun _ => rfl).1 _).2
      ⟨r, [0x20, 0x49, 0x81, 0], ⟨hbegun, by decide, ?_⟩, by decide, [.silence], rfl⟩
    exact ⟨by decide, rfl, by decide, by decide⟩
  · let r : NetReading := ⟨announcement, [chunk]⟩
    have hbegun : r.Begun :=
      ⟨hannouncement, by decide, List.forall_mem_singleton.2 ⟨hchunk, by decide⟩⟩
    have hspoiled : r.Spoiled chunk := ⟨hbegun, by decide, hchunk, by decide, by decide⟩
    have hlength : r.length = 3 := by decide
    have hreceived : r.data.length + (brought chunk).length = 4 := by decide
    rw [← hlength, ← hreceived]
    exact ((fetchNetRegion_eq_ok_iff .userConfig long fun _ => rfl).2.2.2 r chunk [] hspoiled rfl).1

end UniversalRemote.Z
