import UniversalRemote.Proofs.FileTransfer.Release
import UniversalRemote.Proofs.FileTransfer.Schedule
/-!
# What a transfer sends

Whatever the remote does, a transfer sends a beginning of its schedule, under consecutive numbers, and
then releases its token under the next one. `transfers_conducted` reads off what that means for the
reports that storing a file and installing a configuration write: which data they carry, how they
are numbered, and where they are interrupted by acknowledgements.
-/

namespace UniversalRemote.FileTransfer

open Exchange

/-- A beginning of the schedule was sent under the numbers from a place on; all of it, where there
is an answer. -/
def SentOf (plan : List Item) (count : Nat) (past later : List Step)
    (result : Except (Halt RemoteError) α × Sequence) : Prop :=
  ∃ items, items <+: plan ∧
    later.filterMap Step.written? = past.filterMap Step.written? ++ render count items ∧
    result.2 = counter (count + taken items) ∧ ∀ a, result.1 = .ok a → items = plan

namespace Numbered

variable {past : List Step} {n : Sequence} {count : Nat} {plan : List Item}

/-- Behind some steps, and whatever the remote does, an exchange sends a beginning of a schedule. -/
def FollowsFrom (plan : List Item) (x : Numbered α) (n : Sequence) (count : Nat)
    (past : List Step) : Prop :=
  (x.run.run n).Ensures (fun _ _ => True) (fun later result => SentOf plan count past later result)
    past

/-- An exchange sends a beginning of a schedule wherever the counter stands. -/
def Follows (plan : List Item) (x : Numbered α) : Prop :=
  ∀ past count, x.FollowsFrom plan (counter count) count past

theorem follows_pure (a : α) : (pure a : Numbered α).Follows [] := by
  intro past count
  refine ⟨[], List.prefix_refl _, ?_, rfl, fun _ _ => rfl⟩
  rw [render, List.append_nil]

theorem FollowsFrom.bind {first rest : List Item} {x : Numbered α} {f : α → Numbered β}
    (h : x.FollowsFrom first n count past) (hf : ∀ a, (f a).Follows rest) :
    (x >>= f).FollowsFrom (first ++ rest) n count past := by
  apply Program.ensures_bind
  apply Program.Ensures.weaken h
  intro later _ result hresult
  obtain ⟨items, hprefix, hwritten, hcounter, hall⟩ := hresult
  obtain ⟨result, m⟩ := result
  obtain rfl : m = _ := hcounter
  cases result with
  | error halt =>
    exact ⟨items, hprefix.trans (List.prefix_append first rest), hwritten, rfl, nofun⟩
  | ok a =>
    obtain rfl := hall a rfl
    refine Program.Ensures.weaken (hf a later (count + taken items)) ?_
    intro last _ result hresult
    obtain ⟨more, hmore, hlast, hcounter, hall⟩ := hresult
    refine ⟨items ++ more, (List.prefix_append_right_inj items).2 hmore, ?_, ?_, ?_⟩
    · rw [hlast, hwritten, render_append, List.append_assoc]
    · rw [hcounter, taken_append, Nat.add_assoc]
    · exact fun b hb => congrArg (items ++ ·) (hall b hb)

theorem Follows.bind {first rest : List Item} {x : Numbered α} {f : α → Numbered β}
    (h : x.Follows first) (hf : ∀ a, (f a).Follows rest) : (x >>= f).Follows (first ++ rest) :=
  fun past count => (h past count).bind hf

theorem follows_next_bind {f : UInt8 → Numbered α}
    (h : ∀ count past, (f (numberAt count)).FollowsFrom plan (counter (count + 1)) count past) :
    (next >>= f).Follows plan := by
  intro past count
  have hnext := h count past
  rw [← current_counter, ← advance_counter count] at hnext
  exact hnext

/-- What an exchange writes before it ends, it has sent. -/
theorem followsFrom_lift {x : Exchange RemoteError α} {items : List Item}
    (hn : n = counter (count + taken items))
    (h : x.Concludes (fun _ _ => True)
      (fun later _ => later.filterMap Step.written? =
        past.filterMap Step.written? ++ render count items)
      (fun later _ => later.filterMap Step.written? =
        past.filterMap Step.written? ++ render count items) past) :
    (liftM x : Numbered α).FollowsFrom items n count past := by
  apply Program.ensures_bind
  apply Program.Ensures.weaken h
  intro later _ result hresult
  cases result with
  | ok a => exact ⟨items, List.prefix_refl _, hresult, hn, fun _ _ => rfl⟩
  | error halt => exact ⟨items, List.prefix_refl _, hresult, hn, nofun⟩

theorem written_snoc_wrote (past : List Step) (report : Report)
    (outcome : Except LinkError Unit) :
    (past ++ [Step.wrote report outcome]).filterMap Step.written? =
      past.filterMap Step.written? ++ [report] := by
  rw [List.filterMap_append]
  rfl

theorem written_snoc_read (past : List Step) (timeout : Nat)
    (outcome : Except LinkError Report) :
    (past ++ [Step.read timeout outcome]).filterMap Step.written? =
      past.filterMap Step.written? := by
  rw [List.filterMap_append]
  exact List.append_nil _

theorem follows_receive (timeout : Nat) : (liftM (receive timeout) : Numbered Report).Follows [] := by
  intro past count
  have hread : ∀ outcome, (past ++ [Step.read timeout outcome]).filterMap Step.written? =
      past.filterMap Step.written? ++ render count [] := by
    intro outcome
    rw [written_snoc_read, render, List.append_nil]
  exact followsFrom_lift rfl (concludes_receive (fun _ => hread _) fun _ => hread _)

theorem follows_progress (stage : Stage) (current total : Nat) :
    (progress stage current total).Follows [] := by
  intro past count
  refine followsFrom_lift rfl (concludes_notify ?_)
  rw [List.filterMap_append, render]
  rfl

theorem followsFrom_send (past : List Step) (count : Nat) (item : Item) (hn : n = counter (count + item.taken)) :
    (liftM (send (item.report (numberAt count))) : Numbered Unit).FollowsFrom [item] n count
      past := by
  have hwrote := written_snoc_wrote past (item.report (numberAt count))
  exact followsFrom_lift hn (concludes_send trivial (hwrote _) fun _ => hwrote _)

theorem followsFrom_converse (past : List Step) (count : Nat) (item : Item) (timeout : Nat)
    (hn : n = counter (count + item.taken)) :
    (liftM (converse (item.report (numberAt count)) timeout) : Numbered Report).FollowsFrom [item]
      n count past := by
  have hwrote := written_snoc_wrote past (item.report (numberAt count))
  have hread : ∀ outcome, (past ++ [Step.wrote (item.report (numberAt count)) (.ok ())] ++
      [Step.read timeout outcome]).filterMap Step.written? =
      past.filterMap Step.written? ++ render count [item] := by
    intro outcome
    rw [written_snoc_read]
    exact hwrote _
  refine followsFrom_lift hn (concludes_bind (concludes_send trivial ?_ fun _ => hwrote _))
  exact concludes_receive (fun _ => hread _) fun _ => hread _

theorem follows_stop (timeout : Nat) :
    (liftM (converse endOfData timeout) : Numbered Report).Follows [.stop] :=
  fun past count => followsFrom_converse past count .stop timeout rfl

end Numbered

/-! ## Transfers -/

open Numbered

theorem follows_sendData (token : UInt8) (length : Nat) (stage : Stage)
    (pieces : List (List UInt8)) : ∀ unacked sent : Nat,
      (sendData token length stage pieces unacked sent).Follows (scheduled token [] pieces unacked) := by
  induction pieces with
  | nil => exact fun _ _ => follows_pure ()
  | cons piece rest ih =>
    intro unacked sent
    unfold scheduled sendData
    refine follows_next_bind fun count past => ?_
    have hdata := followsFrom_send past count (.data piece) rfl
    split
    · refine hdata.bind fun _ => ?_
      refine (follows_receive _).bind fun _ => follows_next_bind fun count past => ?_
      refine (followsFrom_send past count (.ack token (window (rest.length + 2))) rfl).bind
        fun _ => ?_
      exact (follows_progress _ _ _).bind fun _ => ih _ _
    · refine hdata.bind fun _ => ?_
      exact (follows_progress _ _ _).bind fun _ => ih _ _

/-- What a transfer of a file sends: an acknowledgement, the data, and what comes behind them. -/
def transferPlan (token packets : UInt8) (data : List UInt8) (tail : List Item) : List Item :=
  .ack token packets :: scheduled token tail (chunks dataSize data) 0

def finishing (token : UInt8) (checksum : ChecksumRecord) : List Item :=
  [.stop, .control 0x06 ((finishPacket 0 token checksum).drop 3),
    .control 0x05 [0x02, 0x01, token, 0x01, 0x00]]

theorem follows_storing (token : UInt8) (data : List UInt8) :
    (storing token data).Follows
      (transferPlan token (window (countedPackets data.length)) data [.stop]) := by
  rw [transferPlan, scheduled_append]
  refine follows_next_bind fun count past => ?_
  refine (followsFrom_send past count (.ack token (window (countedPackets data.length))) rfl).bind
    fun _ => ?_
  refine (follows_sendData token _ _ _ 0 0).bind fun _ => ?_
  exact (follows_stop storeWait).bind fun _ => follows_pure ()

theorem followsFrom_sendImage (token : UInt8) (data : List UInt8) (checksum : ChecksumRecord)
    (past : List Step) :
    (sendImage token data checksum).FollowsFrom
      (transferPlan token 0x33 data (finishing token checksum)) (counter 4) 3 past := by
  rw [transferPlan, scheduled_append]
  refine (followsFrom_send past 3 (.ack token 0x33) rfl).bind fun _ => ?_
  refine (follows_progress _ _ _).bind fun _ => (follows_sendData token _ _ _ 0 0).bind fun _ => ?_
  refine (follows_stop fileWait).bind fun _ => (follows_progress _ _ _).bind fun _ => ?_
  refine follows_next_bind fun count past => ?_
  refine (followsFrom_converse past count (.control 0x06 ((finishPacket 0 token checksum).drop 3))
    fileWait rfl).bind fun _ => (follows_progress _ _ _).bind fun _ => ?_
  refine follows_next_bind fun count past => ?_
  exact (followsFrom_converse past count (.control 0x05 [0x02, 0x01, token, 0x01, 0x00]) fileWait
    rfl).bind fun _ => follows_progress _ _ _

/-! ## What was written -/

/-- The reports from the first acknowledgement on. -/
def announced (writes : List Report) : List Report :=
  writes.dropWhile fun report => !isWriteAck report

def packetCount (writes : List Report) : Nat :=
  (writes.filterMap payload?).length

/-- What the writes of a call that sends a file have in common, where the first acknowledgement
carries the number `start`. -/
structure Conducted (start : Nat) (data : List UInt8) (writes : List Report)
    (result : Except (Halt RemoteError) Unit) : Prop where
  /-- A data packet has room for 62 bytes, and tells how many it holds. -/
  framed : ∀ report ∈ writes, ∀ payload, payload? report = some payload →
    payload.length ≤ 62 ∧ report[1]? = some (UInt8.ofNat payload.length)
  /-- The data packets carry a beginning of the data. -/
  carried : (writes.filterMap payload?).flatten <+: data
  complete : result = .ok () → (writes.filterMap payload?).flatten = data
  /-- No data packet goes before the first acknowledgement, without which no call succeeds. -/
  begun : (announced writes).filterMap payload? = writes.filterMap payload? ∧
    (result = .ok () → announced writes ≠ [])
  /-- All packets but the end of the data are numbered without a gap or a repetition. -/
  numbered : ∃ count, ((announced writes).filter (· ≠ [0x7E])).map numberOf? =
    (List.range count).map fun i => some (numberAt (start + i))
  /-- A later acknowledgement stands directly behind the last packet of fifty, and announces two
  packets more than are still to come, or 51. -/
  paced : ∀ before report after, announced writes = before ++ report :: after → before ≠ [] →
    isWriteAck report = true →
    50 ∣ packetCount before ∧
      (∃ packet payload, before.getLast? = some packet ∧ payload? packet = some payload) ∧
      report[7]? = some (UInt8.ofNat (min ((data.length + 61) / 62 - packetCount before + 2) 51))
  /-- Directly behind the last packet of fifty stands an acknowledgement, unless the call fails
  there and only releases its token. -/
  acknowledged : ∀ before report after payload, announced writes = before ++ report :: after →
    payload? report = some payload → 50 ∣ packetCount before + 1 →
    (∃ ack rest, after = ack :: rest ∧ isWriteAck ack = true) ∨
      (result ≠ .ok () ∧ ∃ number token, after = [[0xFF, 0x07, number, 0x01, 0x01, token]])

/-- Neither a data packet nor an acknowledgement. -/
def Introductory (report : Report) : Prop :=
  payload? report = none ∧ isWriteAck report = false

section Conducted

variable {start : Nat} {data : List UInt8} {writes : List Report}
  {result : Except (Halt RemoteError) Unit}

theorem filterMap_payload?_introductory (h : ∀ report ∈ writes, Introductory report) :
    writes.filterMap payload? = [] :=
  List.filterMap_eq_nil_iff.2 fun report hreport => (h report hreport).1

theorem announced_introductory (h : ∀ report ∈ writes, Introductory report)
    (later : List Report) : announced (writes ++ later) = announced later := by
  induction writes with
  | nil => rfl
  | cons report writes ih =>
    have hreport := (h report List.mem_cons_self).2
    rw [List.cons_append, announced, List.dropWhile_cons_of_pos (by simp [hreport])]
    exact ih fun other hother => h other (List.mem_cons_of_mem _ hother)

/-- A call that sends nothing of a file, and fails. -/
theorem conducted_of_introductory (h : ∀ report ∈ writes, Introductory report)
    (hresult : result ≠ .ok ()) : Conducted start data writes result := by
  have hnone : announced writes = [] := by
    have := announced_introductory h []
    rwa [List.append_nil] at this
  have hsplit : ∀ before report after, announced writes ≠ before ++ report :: after := by
    intro before report after heq
    rw [hnone] at heq
    exact List.append_ne_nil_of_right_ne_nil before (List.cons_ne_nil _ _) heq.symm
  constructor
  case framed =>
    intro report hreport payload hpayload
    exact nomatch (h report hreport).1.symm.trans hpayload
  case carried =>
    rw [filterMap_payload?_introductory h]
    exact List.nil_prefix
  case complete => exact fun hok => absurd hok hresult
  case begun =>
    refine ⟨?_, fun hok => absurd hok hresult⟩
    rw [hnone, filterMap_payload?_introductory h]
    rfl
  case numbered => exact ⟨0, by rw [hnone]; rfl⟩
  case paced => exact fun before report after heq => absurd heq (hsplit before report after)
  case acknowledged =>
    exact fun before report after _ heq => absurd heq (hsplit before report after)

theorem eq_or_exists_of_snoc_eq {α : Type} {l first rest : List α} {last x : α}
    (h : l ++ [last] = first ++ x :: rest) :
    (x = last ∧ l = first) ∨ ∃ behind, rest = behind ++ [last] ∧ l = first ++ x :: behind := by
  rcases List.eq_nil_or_concat rest with rfl | ⟨behind, other, hrest⟩
  · obtain ⟨hfirst, hlast⟩ := List.append_inj' h rfl
    exact .inl ⟨(List.cons.inj hlast).1.symm, hfirst⟩
  · rw [List.concat_eq_append] at hrest
    have h : l ++ [last] = (first ++ x :: behind) ++ [other] := by simpa [hrest] using h
    obtain ⟨hl, hlast⟩ := List.append_inj' h rfl
    obtain rfl := (List.cons.inj hlast).1
    exact .inr ⟨behind, hrest, hl⟩

theorem data_of_payload? {item : Item} {payload : List UInt8} (h : item.payload? = some payload) :
    item = .data payload := by
  cases item with
  | control => exact nomatch h
  | data other => exact congrArg _ (Option.some.inj h)
  | stop => exact nomatch h

theorem framed_render {count : Nat} {items : List Item} {report : Report} {payload : List UInt8}
    (hpieces : items.filterMap Item.payload? <+: chunks dataSize data)
    (hreport : report ∈ render count items) (hpayload : payload? report = some payload) :
    payload.length ≤ 62 ∧ report[1]? = some (UInt8.ofNat payload.length) := by
  obtain ⟨before, after, hsplit⟩ := List.append_of_mem hreport
  obtain ⟨first, item, rest, rfl, -, rfl, -⟩ := exists_of_render_eq count hsplit
  rw [payload?_report] at hpayload
  obtain rfl := data_of_payload? hpayload
  have hmem : payload ∈ chunks dataSize data := hpieces.subset <|
    List.mem_filterMap.2 ⟨.data payload, List.mem_append_right _ List.mem_cons_self, rfl⟩
  exact ⟨length_le_of_mem_chunks (by decide) hmem, rfl⟩

theorem packetCount_render (count : Nat) (items : List Item) :
    packetCount (render count items) = dataCount items := by
  rw [packetCount, filterMap_payload?_render, dataCount]

section Rendered

variable {token packets : UInt8} {tail body more : List Item}
  (hplan : scheduled token tail (chunks dataSize data) 0 = body ++ more) (htail : Plain tail)
  {before after : List Report} {report : Report}
  (hsplit : render start (.ack token packets :: body ++ [.release token]) = before ++ report :: after)
include hplan htail hsplit

theorem paced_render (hbefore : before ≠ []) (hack : isWriteAck report = true) :
    50 ∣ packetCount before ∧
      (∃ packet payload, before.getLast? = some packet ∧ payload? packet = some payload) ∧
      report[7]? = some (UInt8.ofNat (min ((data.length + 61) / 62 - packetCount before + 2) 51)) := by
  obtain ⟨first, item, rest, hitems, rfl, rfl, -⟩ := exists_of_render_eq start hsplit
  rw [isWriteAck_report] at hack
  rcases eq_or_exists_of_snoc_eq hitems with ⟨rfl, -⟩ | ⟨behind, -, hbody⟩
  · exact nomatch hack
  cases first with
  | nil => exact absurd rfl hbefore
  | cons front first =>
    obtain ⟨rfl, hrest⟩ := List.cons.inj hbody
    have hscheduled : scheduled token tail (chunks dataSize data) 0 =
        first ++ item :: (behind ++ more) := by
      rw [hplan, hrest]
      exact List.append_assoc _ _ _
    cases placed_scheduled _ (by decide) hscheduled with
    | late hlate => exact nomatch hack.symm.trans (htail item hlate).2
    | piece _ => exact nomatch hack
    | ack beginning piece hfirst hdvd =>
      rw [packetCount_render, dataCount_ack]
      refine ⟨by rwa [Nat.zero_add] at hdvd, ?_, ?_⟩
      · -- the packet in front is the one that ends the interval
        refine ⟨_, piece, ?_, payload?_report (start + taken (.ack token packets :: beginning))
          (.data piece)⟩
        rw [hfirst, ← List.cons_append, render_append]
        exact List.getLast?_concat
      · rw [length_chunks (by decide)]
        rfl

theorem acknowledged_render {payload : List UInt8} (hpayload : payload? report = some payload)
    (hdvd : 50 ∣ packetCount before + 1) :
    (∃ ack rest, after = ack :: rest ∧ isWriteAck ack = true) ∨
      (more ≠ [] ∧ ∃ number, after = [releasePacket number token]) := by
  obtain ⟨first, item, rest, hitems, rfl, rfl, hafter⟩ := exists_of_render_eq start hsplit
  rw [payload?_report] at hpayload
  obtain rfl := data_of_payload? hpayload
  rcases eq_or_exists_of_snoc_eq hitems with ⟨hrelease, -⟩ | ⟨behind, rfl, hbody⟩
  · exact nomatch hrelease
  cases first with
  | nil => exact absurd (List.cons.inj hbody).1 nofun
  | cons front first =>
    obtain ⟨rfl, hrest⟩ := List.cons.inj hbody
    have hscheduled : scheduled token tail (chunks dataSize data) 0 =
        first ++ .data payload :: (behind ++ more) := by
      rw [hplan, hrest]
      exact List.append_assoc _ _ _
    rw [packetCount_render, dataCount_ack] at hdvd
    have hfollowed : ∃ announcing later, behind ++ more = .ack token announcing :: later := by
      cases placed_scheduled _ (by decide) hscheduled with
      | late hlate => exact nomatch (htail _ hlate).1
      | piece h => exact h (by rwa [Nat.zero_add])
    obtain ⟨announcing, later, hlater⟩ := hfollowed
    cases behind with
    | nil =>
      -- the schedule was left here
      refine .inr ⟨?_, _, hafter⟩
      rintro rfl
      exact nomatch hlater
    | cons second behind =>
      obtain ⟨rfl, -⟩ := List.cons.inj hlater
      refine .inl ⟨_, _, hafter, ?_⟩
      rw [isWriteAck_report]
      rfl

end Rendered

theorem filterMap_payload?_between (token packets : UInt8) (body : List Item) :
    (Item.ack token packets :: body ++ [Item.release token]).filterMap Item.payload? =
      body.filterMap Item.payload? := by
  rw [List.filterMap_append]
  exact List.append_nil _

/-- Wherever a schedule is left, what was sent and what was not are its data. -/
theorem payloads_of_scheduled {token : UInt8} {tail body more : List Item} (htail : Plain tail)
    (hplan : scheduled token tail (chunks dataSize data) 0 = body ++ more) :
    body.filterMap Item.payload? ++ more.filterMap Item.payload? = chunks dataSize data := by
  rw [← List.filterMap_append, ← hplan, filterMap_payload?_scheduled htail]

/-- A call that has sent the first acknowledgement leaves its schedule somewhere, and releases its
token. -/
theorem conducted_of_begun {token packets : UInt8} {tail body more : List Item}
    {intro : List Report} (htail : Plain tail) (hintro : ∀ report ∈ intro, Introductory report)
    (hplan : scheduled token tail (chunks dataSize data) 0 = body ++ more)
    (hall : result = .ok () → more = [])
    (hwrites : writes = intro ++ render start (.ack token packets :: body ++ [.release token])) :
    Conducted start data writes result := by
  have hpieces := payloads_of_scheduled htail hplan
  have hannounced : announced writes =
      render start (.ack token packets :: body ++ [.release token]) := by
    rw [hwrites, announced_introductory hintro]
    rfl
  have hpayloads : writes.filterMap payload? = body.filterMap Item.payload? := by
    rw [hwrites, List.filterMap_append, filterMap_payload?_introductory hintro,
      filterMap_payload?_render]
    exact filterMap_payload?_between token packets body
  constructor
  case framed =>
    intro report hreport payload hpayload
    rw [hwrites, List.mem_append] at hreport
    rcases hreport with hreport | hreport
    · exact nomatch (hintro report hreport).1.symm.trans hpayload
    · have hsome : (Item.ack token packets :: body ++ [Item.release token]).filterMap
          Item.payload? <+: chunks dataSize data := by
        rw [filterMap_payload?_between]
        exact ⟨_, hpieces⟩
      exact framed_render hsome hreport hpayload
  case carried =>
    refine ⟨(more.filterMap Item.payload?).flatten, ?_⟩
    rw [hpayloads, ← List.flatten_append, hpieces, flatten_chunks]
  case complete =>
    intro hok
    rw [hall hok, List.filterMap_nil, List.append_nil] at hpieces
    rw [hpayloads, hpieces, flatten_chunks]
  case begun =>
    rw [hannounced]
    refine ⟨?_, fun _ => List.cons_ne_nil _ _⟩
    rw [filterMap_payload?_render, filterMap_payload?_between, hpayloads]
  case numbered =>
    rw [hannounced]
    exact ⟨_, map_numberOf?_render start _⟩
  case paced =>
    intro before report after hsplit hbefore hack
    rw [hannounced] at hsplit
    exact paced_render hplan htail hsplit hbefore hack
  case acknowledged =>
    intro before report after payload hsplit hpayload hdvd
    rw [hannounced] at hsplit
    rcases acknowledged_render hplan htail hsplit hpayload hdvd with hack | ⟨hmore, hrelease⟩
    · exact .inl hack
    · obtain ⟨number, hnumber⟩ := hrelease
      exact .inr ⟨fun hok => hmore (hall hok), number, token, hnumber⟩

/-- A call that sends a beginning of its schedule and then releases its token. -/
theorem conducted_of_rendered {token packets : UInt8} {tail items : List Item}
    {intro : List Report} (htail : Plain tail) (hintro : ∀ report ∈ intro, Introductory report)
    (hitems : items <+: transferPlan token packets data tail)
    (hall : result = .ok () → items = transferPlan token packets data tail)
    (hwrites : writes = intro ++ render start (items ++ [.release token])) :
    Conducted start data writes result := by
  cases items with
  | nil =>
    refine conducted_of_introductory (fun report hreport => ?_) fun hok => nomatch hall hok
    rw [hwrites, List.mem_append] at hreport
    rcases hreport with hreport | hreport
    · exact hintro report hreport
    · obtain rfl := List.mem_singleton.1 hreport
      exact ⟨rfl, rfl⟩
  | cons front body =>
    obtain ⟨more, hmore⟩ := hitems
    obtain ⟨rfl, hplan⟩ := List.cons.inj hmore
    refine conducted_of_begun htail hintro hplan.symm (fun hok => ?_) hwrites
    have hbody : body = body ++ more := (List.cons.inj (hall hok)).2.trans hplan.symm
    exact List.append_right_eq_self.1 hbody.symm

end Conducted

/-! ## Calls -/

theorem Closing.written {report : Report} {closing : List Turn} {closed : Except LinkError Unit}
    (h : Closing report closing closed) : closing.filterMap Turn.said? = [report] := by
  cases h with
  | unsent cause => rfl
  | unanswered cause => rfl
  | answered answer => rfl

theorem exists_of_concluded_eq_ok {outcome : Except RemoteError α}
    {closed : Except LinkError Unit} {f : α → β} {b : β}
    (h : (concluded outcome closed).map f = .ok b) : ∃ a, outcome = .ok a := by
  cases outcome with
  | error cause => exact nomatch h
  | ok a => exact ⟨a, rfl⟩

/-- A call that opens a file and sends a beginning of a schedule under the token that it was told. -/
theorem conducted_call {device : Device σ} {state : σ} {start : Nat} {data : List UInt8}
    {opening : Exchange RemoteError (UInt8 × Nat)} {n : Sequence} {packets : UInt8}
    (tail : UInt8 → List Item) (transfer : UInt8 → Numbered Unit)
    (finish : Unit → Exchange RemoteError Unit)
    (hopening : opening.Ensures Unreleasing
      (fun later told => (transfer told.1).Settles n later) [])
    (hintro : opening.Writes Introductory) (htail : ∀ token, Plain (tail token))
    (hfollows : ∀ token, (transfer token).FollowsFrom
      (transferPlan token packets data (tail token)) n start [])
    (hfinish : ∀ {σ : Type} (device : Device σ) (state : σ) (u : Unit),
      ((finish u).run.run device state).result = .ok u ∧
        turns ((finish u).run.run device state).trace = []) :
    let run := Program.run (ExceptT.run (do
      let (token, _) ← opening
      let u ← Numbered.holding token (transfer token) n
      finish u)) device state
    Conducted start data (run.trace.filterMap Step.written?) run.result := by
  intro run
  have hopened := Program.Writes.run hintro device state
  cases htold : (opening.run.run device state).result with
  | error halt =>
    obtain ⟨hresult, htrace⟩ := run_bind_error htold fun (told : UInt8 × Nat) => do
      let u ← Numbered.holding told.1 (transfer told.1) n
      finish u
    have hresult : run.result = .error halt := hresult
    rw [show run.trace = _ from htrace, hresult]
    exact conducted_of_introductory hopened nofun
  | ok told =>
    obtain ⟨token, length⟩ := told
    have hsettles : (transfer token).Settles n _ :=
      (Program.Ensures.run hopening device state).1 _ htold
    have hregular := (Program.Ensures.run hsettles device (opening.run.run device state).state).1.2
    obtain ⟨outcome, houtcome⟩ := exists_of_regular hregular
    obtain ⟨closing, closed, hclosing, hturns, hresult⟩ :=
      run_call (fun token _ => transfer token) hfinish htold houtcome
    obtain ⟨items, hprefix, hwritten, hcounter, hall⟩ :=
      (Program.Ensures.run (hfollows token) device (opening.run.run device state).state).1
    rw [hcounter, current_counter] at hclosing
    simp only [List.nil_append, List.filterMap_nil] at hwritten
    refine conducted_of_rendered (htail token) hopened hprefix (fun hok => ?_) ?_
    · obtain ⟨u, rfl⟩ := exists_of_concluded_eq_ok (hresult.symm.trans hok)
      exact hall u houtcome
    · calc run.trace.filterMap Step.written?
          = (opening.run.run device state).trace.filterMap Step.written? ++
            render start items ++ [releasePacket (numberAt (start + taken items)) token] := by
              rw [← filterMap_said?_turns, hturns, List.filterMap_append, hclosing.written,
                filterMap_said?_turns, List.filterMap_append, ← hwritten]
        _ = _ := by
              rw [render_append, List.append_assoc]
              rfl

theorem introductory_openToWrite (number : UInt8) (name : String) (length : Nat) :
    Introductory (openToWrite number name length) :=
  ⟨rfl, rfl⟩

theorem writes_openFile {request : Report} (h : Introductory request) (timeout : Nat) :
    (openFile request timeout).Writes Introductory :=
  writes_bind (writes_bind (writes_send h) fun _ => writes_receive _) fun _ => writes_check _

theorem writes_openingStore (name : String) (length : Nat) :
    (openingStore name length).Writes Introductory := by
  have hname : (admitName name 50).Writes Introductory := by
    unfold admitName
    split
    · exact writes_throw _
    · exact writes_pure _
  exact writes_bind hname fun _ => writes_openFile (introductory_openToWrite _ _ _) _

theorem writes_openingInstall (image : Image) : (openingInstall image).Writes Introductory := by
  unfold openingInstall
  split
  · exact trivial
  · refine writes_bind (writes_notify _) fun _ => ?_
    refine writes_bind (writes_bind (writes_send ⟨rfl, rfl⟩) fun _ => writes_receive _) fun _ => ?_
    refine writes_bind (writes_notify _) fun _ => ?_
    refine writes_bind (writes_openFile (introductory_openToWrite _ _ _) _) fun _ => ?_
    exact writes_bind (writes_notify _) fun _ => writes_pure _

/-- Storing a file and installing a configuration send the data in order, number all packets from the
first acknowledgement on, and acknowledge every fifty packets of data, whatever the remote does. -/
theorem transfers_conducted (device : Device σ) (state : σ) :
    (∀ name data,
      let run := (store name data).run.run device state
      Conducted 1 data (run.trace.filterMap Step.written?) run.result) ∧
    ∀ image,
      let run := (install image).run.run device state
      Conducted 3 image.data (run.trace.filterMap Step.written?) run.result := by
  have hstop : ∀ _ : UInt8, Plain [.stop] := by
    intro _ item hitem
    obtain rfl := List.mem_singleton.1 hitem
    exact ⟨rfl, rfl⟩
  have hfinishing : ∀ token checksum, Plain (finishing token checksum) := by
    intro token checksum item hitem
    simp only [finishing, List.mem_cons, List.not_mem_nil, or_false] at hitem
    rcases hitem with rfl | rfl | rfl
    all_goals exact ⟨rfl, rfl⟩
  constructor
  · intro name data
    rw [store_eq]
    exact conducted_call (fun _ => [.stop]) (storing · data) pure (ensures_openingStore name data)
      (writes_openingStore name _) hstop (fun token => follows_storing token data [] 1)
      fun device state u => ⟨rfl, rfl⟩
  · intro image
    rw [install_eq]
    exact conducted_call (finishing · (checksumOf image))
      (sendImage · image.data (checksumOf image)) (fun _ => progress .finalizeUpdate 4 4)
      (ensures_openingInstall image) (writes_openingInstall image)
      (hfinishing · (checksumOf image))
      (fun token => followsFrom_sendImage token image.data (checksumOf image) [])
      fun device state u => ⟨rfl, rfl⟩

end UniversalRemote.FileTransfer
