import UniversalRemote.Proofs.FileTransfer.Ordering
import UniversalRemote.Proofs.Link.Dialogue
/-!
# The release of a token

A call that has opened a file has a token, and releases it whatever comes of the transfer.
`calls_release` says so of the three calls that open files for more than their length, on every
device: where and with which number the token is released, and what the call then ends with.
-/

namespace UniversalRemote.FileTransfer

open Exchange

/-- The turns of a release, and what came of it. -/
inductive Closing (report : Report) : List Turn → Except LinkError Unit → Prop
  | unsent (cause : LinkError) : Closing report [.wrote report (.error cause)] (.error cause)
  | unanswered (cause : LinkError) :
    Closing report [.say report, .read (.error cause)] (.error cause)
  | answered (answer : Report) : Closing report [.say report, .hear answer] (.ok ())

/-- What a call ends with. A failure of the transfer counts before one of the release. -/
def concluded (transferred : Except RemoteError α) (closed : Except LinkError Unit) :
    Except (Halt RemoteError) α :=
  match transferred, closed with
  | .error cause, _ => .error (.failed cause)
  | .ok _, .error cause => .error (.failed (.link cause))
  | .ok a, .ok () => .ok a

/-- The turns of a call that has asked for a token with a request, and was told none. -/
inductive Untold (request : Report) : List Turn → Prop
  | unasked {dialogue : List Turn} (h : request ∉ dialogue.filterMap Turn.said?) :
    Untold request dialogue
  | unsent (front : List Turn) (cause : LinkError) :
    Untold request (front ++ [.wrote request (.error cause)])
  | unanswered (front : List Turn) (cause : LinkError) :
    Untold request (front ++ [.say request, .read (.error cause)])
  | short (front : List Turn) {answer : Report} (h : answer.length < 11) :
    Untold request (front ++ [.say request, .hear answer])

/-- A call opens a file with a request, goes on with a transfer under the token that the answer tells,
and releases the token whatever came of the transfer. -/
structure Releases (call : Exchange RemoteError α) (request : Report)
    (opening : Exchange RemoteError (UInt8 × Nat)) (start : Sequence)
    (transfer : UInt8 → Nat → Numbered β) (answer : β → α) : Prop where
  /-- A call without a token ends as its opening does, and has released nothing. -/
  without : ∀ {σ : Type} (device : Device σ) (state : σ) (halt : Halt RemoteError),
    (opening.run.run device state).result = .error halt →
    let run := call.run.run device state
    run.result = .error halt ∧ Untold request (turns run.trace) ∧
      ∀ report ∈ run.trace.filterMap Step.written?, ¬ IsRelease report
  /-- A call with a token ends with its release, which is the only one, carries the number behind
  the last one written, and decides the result where the transfer did not fail. -/
  within : ∀ {σ : Type} (device : Device σ) (state : σ) (token : UInt8) (length : Nat),
    (opening.run.run device state).result = .ok (token, length) →
    let run := call.run.run device state
    let opened := opening.run.run device state
    let transferred := ((transfer token length).run.run start).run device opened.state
    let before := opened.trace ++ transferred.trace
    ∃ front told outcome last closing closed,
      turns opened.trace = front ++ [.say request, .hear told] ∧
      11 ≤ told.length ∧ told.getD 5 0 = token ∧
      transferred.result.1 = outcome.mapError .failed ∧
      (∀ report ∈ before.filterMap Step.written?, ¬ IsRelease report) ∧
      lastNumber? before = some last ∧
      Closing [0xFF, 0x07, numberAt (last.toNat + 1), 0x01, 0x01, token] closing closed ∧
      turns run.trace = turns before ++ closing ∧
      run.result = (concluded outcome closed).map answer

/-! ## Openings -/

/-- An exchange asks for a token with a request, and has one exactly if the answer tells it. -/
structure Asks (request : Report) (opening : Exchange RemoteError (UInt8 × Nat)) : Prop where
  told : ∀ {dialogue : List Turn} {token : UInt8} {length : Nat},
    opening.Yields dialogue (token, length) → ∃ front answer,
      dialogue = front ++ [.say request, .hear answer] ∧ 11 ≤ answer.length ∧
        answer.getD 5 0 = token
  untold : ∀ {dialogue : List Turn} {halt : Halt RemoteError},
    opening.run.Takes dialogue (.error halt) → Untold request dialogue

section Openings

variable {request : Report}

theorem Untold.behind {front later : List Turn} (hfront : request ∉ front.filterMap Turn.said?)
    (h : Untold request later) : Untold request (front ++ later) := by
  cases h with
  | unasked hlater =>
    refine .unasked ?_
    rw [List.filterMap_append, List.mem_append]
    exact not_or.2 ⟨hfront, hlater⟩
  | unsent middle cause =>
    rw [← List.append_assoc]
    exact .unsent _ cause
  | unanswered middle cause =>
    rw [← List.append_assoc]
    exact .unanswered _ cause
  | short middle hshort =>
    rw [← List.append_assoc]
    exact .short _ hshort

theorem asks_openFile (request : Report) (timeout : Nat) : Asks request (openFile request timeout) := by
  constructor
  case told =>
    intro dialogue token length h
    obtain ⟨answer, rfl, hopened⟩ := yields_openFile.1 h
    obtain ⟨hlong, htoken, -⟩ := opened_eq_ok_iff.1 hopened
    exact ⟨[], answer, rfl, hlong, htoken⟩
  case untold =>
    rintro dialogue halt ⟨written, rest, rfl, hrest⟩
    cases written with
    | error cause =>
      obtain ⟨rfl, -⟩ := hrest
      exact .unsent [] cause
    | ok u =>
      obtain ⟨read, later, rfl, hlater⟩ := hrest
      cases read with
      | error cause =>
        obtain ⟨rfl, -⟩ := hlater
        exact .unanswered [] cause
      | ok answer =>
        have hcheck : (check (opened answer)).run.Takes later (.error halt) := hlater
        unfold opened at hcheck
        split at hcheck
        · rename_i hshort
          obtain ⟨rfl, -⟩ := hcheck
          exact .short [] hshort
        · exact nomatch hcheck.2

/-- What goes before the request asks for nothing. -/
theorem Asks.behind {x : Exchange RemoteError α} {f : α → Exchange RemoteError (UInt8 × Nat)}
    (hx : ∀ dialogue result, x.run.Takes dialogue result →
      request ∉ dialogue.filterMap Turn.said?)
    (hf : ∀ a, Asks request (f a)) : Asks request (x >>= f) := by
  constructor
  case told =>
    intro dialogue token length h
    obtain ⟨a, first, rest, rfl, -, hrest⟩ := yields_bind.1 h
    obtain ⟨front, answer, rfl, htold⟩ := (hf a).told hrest
    exact ⟨first ++ front, answer, (List.append_assoc _ _ _).symm, htold⟩
  case untold =>
    intro dialogue halt h
    rcases takes_bind.1 h with ⟨_, hfails, -⟩ | ⟨a, first, rest, rfl, hfirst, hrest⟩
    · exact .unasked (hx _ _ hfails)
    · exact ((hf a).untold hrest).behind (hx _ _ hfirst)

theorem Asks.progress {opening : Exchange RemoteError (UInt8 × Nat)} (h : Asks request opening)
    (stage : Stage) (current total : Nat) :
    Asks request (do
      let told ← opening
      progress stage current total
      return told) := by
  constructor
  case told =>
    intro dialogue token length hyields
    obtain ⟨told, first, rest, rfl, hfirst, rfl, hrest⟩ := yields_bind.1 hyields
    obtain rfl := Except.ok.inj hrest
    rw [List.append_nil]
    exact h.told hfirst
  case untold =>
    intro dialogue halt htakes
    rcases takes_bind.1 htakes with ⟨other, hfails, -⟩ | ⟨told, first, rest, rfl, hfirst, -, hrest⟩
    · exact h.untold hfails
    · cases hrest

theorem asks_of_admitName {opening : Exchange RemoteError (UInt8 × Nat)} (name : String)
    (limit : Nat) (h : Asks request opening) :
    Asks request (do
      admitName name limit
      opening) := by
  refine .behind (fun dialogue result htakes => ?_) fun _ => h
  unfold admitName at htakes
  split at htakes
  all_goals
    obtain ⟨rfl, -⟩ := htakes
    exact List.not_mem_nil

theorem filterMap_said?_of_takes_converse {report : Report} {timeout : Nat} {dialogue : List Turn}
    {result : Except (Halt RemoteError) Report}
    (h : (converse report timeout).run.Takes dialogue result) :
    dialogue.filterMap Turn.said? = [report] := by
  obtain ⟨written, rest, rfl, hrest⟩ := h
  cases written with
  | error cause =>
    obtain ⟨rfl, -⟩ := hrest
    rfl
  | ok u =>
    obtain ⟨read, later, rfl, hlater⟩ := hrest
    cases read with
    | error cause =>
      obtain ⟨rfl, -⟩ := hlater
      rfl
    | ok answer =>
      obtain ⟨rfl, -⟩ := hlater
      rfl

end Openings

/-! ## Runs -/

section Run

variable {device : Device σ} {state : σ}

theorem takes_first {outcome : Except RemoteError α} (closed : Except LinkError Unit)
    {dialogue : List Turn} {result : Except (Halt RemoteError) α}
    (h : (first outcome (closed.mapError .link)).run.Takes dialogue result) :
    dialogue = [] ∧ result = concluded outcome closed := by
  cases outcome <;> cases closed
  all_goals exact ⟨h.1, h.2.symm⟩

theorem closing_of_run (device : Device σ) (state : σ) (number token : UInt8)
    (outcome : Except RemoteError α) :
    let run := (do
      let closed ← attempt (release number token)
      first outcome closed : Exchange RemoteError α).run.run device state
    ∃ closing closed, Closing (releasePacket number token) closing closed ∧
      turns run.trace = closing ∧ run.result = concluded outcome closed := by
  intro run
  have htakes := Program.takes_run (do
    let closed ← attempt (release number token)
    first outcome closed : Exchange RemoteError α).run device state
  obtain ⟨written, rest, hturns, hrest⟩ := htakes
  cases written with
  | error cause =>
    obtain ⟨rfl, hresult⟩ := takes_first (.error cause) hrest
    exact ⟨_, _, .unsent cause, hturns, hresult⟩
  | ok u =>
    obtain ⟨answer, later, rfl, hlater⟩ := hrest
    cases answer with
    | error cause =>
      obtain ⟨rfl, hresult⟩ := takes_first (.error cause) hlater
      exact ⟨_, _, .unanswered cause, hturns, hresult⟩
    | ok report =>
      obtain ⟨rfl, hresult⟩ := takes_first (.ok ()) hlater
      exact ⟨_, _, .answered report, hturns, hresult⟩

theorem turns_append (first rest : List Step) : turns (first ++ rest) = turns first ++ turns rest :=
  List.filterMap_append

theorem run_holding {body : Numbered α} {n : Sequence} (token : UInt8)
    {outcome : Except RemoteError α}
    (houtcome : ((body.run.run n).run device state).result.1 = outcome.mapError .failed) :
    let transferred := (body.run.run n).run device state
    let run := Program.run (ExceptT.run (Numbered.holding token body n)) device state
    ∃ closing closed,
      Closing (releasePacket transferred.result.2.current token) closing closed ∧
      turns run.trace = turns transferred.trace ++ closing ∧
      run.result = concluded outcome closed := by
  intro transferred run
  have hresult : transferred.result = (outcome.mapError .failed, transferred.result.2) :=
    Prod.ext houtcome rfl
  have hattempt : Program.run (ExceptT.run (body.attempt n)) device state =
      ⟨.ok (outcome, transferred.result.2), transferred.state, transferred.trace ++ []⟩ := by
    change ((body.run.run n).bind _).run device state = _
    rw [Program.run_bind]
    dsimp only
    rw [show ((body.run.run n).run device state).result = _ from hresult]
    cases outcome <;> rfl
  obtain ⟨closing, closed, hclosing, hturns, hclosed⟩ := closing_of_run device
    transferred.state transferred.result.2.current token outcome
  have hrun := run_bind_ok (congrArg Run.result hattempt) fun answer => do
    let closed ← attempt (release answer.2.current token)
    first answer.1 closed
  rw [hattempt, List.append_nil] at hrun
  have hrun : run = _ := hrun
  refine ⟨closing, closed, hclosing, ?_, ?_⟩
  · rw [hrun, ← hturns]
    exact turns_append _ _
  · rw [hrun, ← hclosed]

theorem exists_of_regular {result : Except (Halt RemoteError) α} (h : Regular result) :
    ∃ outcome : Except RemoteError α, result = outcome.mapError .failed := by
  cases result with
  | ok a => exact ⟨.ok a, rfl⟩
  | error halt =>
    obtain ⟨cause, rfl⟩ := h halt rfl
    exact ⟨.error cause, rfl⟩

/-- What is done behind a call without traffic leaves its turns, and reads its answer. -/
theorem run_bind_finish (device : Device σ) (state : σ) (x : Exchange ε β)
    {finish : β → Exchange ε α} {answer : β → α}
    (hfinish : ∀ {σ : Type} (device : Device σ) (state : σ) (b : β),
      ((finish b).run.run device state).result = .ok (answer b) ∧
        turns ((finish b).run.run device state).trace = []) :
    ((x >>= finish).run.run device state).result =
        (x.run.run device state).result.map answer ∧
      turns ((x >>= finish).run.run device state).trace = turns (x.run.run device state).trace := by
  cases hresult : (x.run.run device state).result with
  | error halt =>
    obtain ⟨hhalt, htrace⟩ := run_bind_error hresult finish
    exact ⟨hhalt, congrArg turns htrace⟩
  | ok b =>
    obtain ⟨hanswer, hturns⟩ := hfinish device (x.run.run device state).state b
    rw [run_bind_ok hresult finish]
    refine ⟨hanswer, ?_⟩
    rw [turns_append, hturns, List.append_nil]

/-- A call that was told a token ends with the release of it, under the number that is due then. -/
theorem run_call {opening : Exchange RemoteError (UInt8 × Nat)} {start : Sequence}
    (transfer : UInt8 → Nat → Numbered β) {answer : β → α} {finish : β → Exchange RemoteError α}
    (hfinish : ∀ {σ : Type} (device : Device σ) (state : σ) (b : β),
      ((finish b).run.run device state).result = .ok (answer b) ∧
        turns ((finish b).run.run device state).trace = [])
    {token : UInt8} {length : Nat}
    (htold : (opening.run.run device state).result = .ok (token, length))
    {outcome : Except RemoteError β}
    (houtcome : (((transfer token length).run.run start).run device
      (opening.run.run device state).state).result.1 = outcome.mapError .failed) :
    let run := Program.run (ExceptT.run (do
      let (token, length) ← opening
      let b ← Numbered.holding token (transfer token length) start
      finish b)) device state
    let opened := opening.run.run device state
    let transferred := ((transfer token length).run.run start).run device opened.state
    ∃ closing closed,
      Closing (releasePacket transferred.result.2.current token) closing closed ∧
      turns run.trace = turns (opened.trace ++ transferred.trace) ++ closing ∧
      run.result = (concluded outcome closed).map answer := by
  intro run opened transferred
  obtain ⟨closing, closed, hclosing, hturns, hresult⟩ := run_holding token houtcome
  obtain ⟨hfinal, hfinalTurns⟩ := run_bind_finish device opened.state
    (Numbered.holding token (transfer token length) start) hfinish
  have hrun := run_bind_ok htold fun (token, length) => do
    let b ← Numbered.holding token (transfer token length) start
    finish b
  have hrun : run = _ := hrun
  refine ⟨closing, closed, hclosing, ?_, ?_⟩
  · rw [hrun]
    show turns (opened.trace ++ _) = _
    rw [turns_append, hfinalTurns, hturns, ← List.append_assoc, ← turns_append]
  · rw [hrun]
    show _ = _
    rw [← hresult]
    exact hfinal

theorem releases_of {request : Report} {opening : Exchange RemoteError (UInt8 × Nat)}
    {start : Sequence} (transfer : UInt8 → Nat → Numbered β) {answer : β → α}
    {finish : β → Exchange RemoteError α} (hasks : Asks request opening)
    (hopening : opening.Ensures Unreleasing
      (fun later told => (transfer told.1 told.2).Settles start later) [])
    (hfinish : ∀ {σ : Type} (device : Device σ) (state : σ) (b : β),
      ((finish b).run.run device state).result = .ok (answer b) ∧
        turns ((finish b).run.run device state).trace = []) :
    Releases (do
      let (token, length) ← opening
      let b ← Numbered.holding token (transfer token length) start
      finish b) request opening start transfer answer := by
  constructor
  · intro σ device state halt hhalt run
    obtain ⟨hresult, htrace⟩ := run_bind_error hhalt fun (token, length) => do
      let b ← Numbered.holding token (transfer token length) start
      finish b
    have htakes := Program.takes_run opening.run device state
    rw [hhalt] at htakes
    rw [show run.trace = _ from htrace]
    exact ⟨hresult, hasks.untold htakes, (Program.Ensures.run hopening device state).2.written⟩
  · intro σ device state token length htold run opened transferred before
    obtain ⟨hpost, hopened⟩ := Program.Ensures.run hopening device state
    have hsettles : (transfer token length).Settles start opened.trace := hpost _ htold
    obtain ⟨⟨hstep, hregular⟩, hquiet⟩ := Program.Ensures.run hsettles device opened.state
    obtain ⟨last, hlast, hn⟩ := hstep
    obtain ⟨outcome, houtcome⟩ := exists_of_regular hregular
    obtain ⟨closing, closed, hclosing, hturns, hresult⟩ := run_call transfer hfinish htold houtcome
    rw [hn, current_counter] at hclosing
    have htakes := Program.takes_run opening.run device state
    rw [htold] at htakes
    obtain ⟨front, told, htrace, hlong, htoken⟩ := hasks.told htakes
    refine ⟨front, told, outcome, last, closing, closed, htrace, hlong, htoken, houtcome, ?_, hlast,
      hclosing, hturns, hresult⟩
    intro report hreport
    rw [List.filterMap_append, List.mem_append] at hreport
    rcases hreport with hreport | hreport
    · exact hopened.written report hreport
    · exact hquiet.written report hreport

end Run

/-! ## Calls -/

def openingFetch (name : String) : Exchange RemoteError (UInt8 × Nat) := do
  admitName name 55
  openFile (openToRead 0x00 0x02 name) fileWait

def openingStore (name : String) (length : Nat) : Exchange RemoteError (UInt8 × Nat) := do
  admitName name 50
  openFile (openToWrite 0x00 name length) fileWait

def checksumOf (image : Image) : ChecksumRecord :=
  image.checksum.getD (ChecksumRecord.ofConfig image.data)

/-- The opening of an update whose checksum is right. -/
def openingUpdate (length : Nat) : Exchange RemoteError (UInt8 × Nat) := do
  progress .initializeUpdate 0 3
  let _ ← converse [0xFF, 0xFF, 0x00, 0x01, 0x01, 0x66] fileWait
  progress .initializeUpdate 1 3
  let told ← openFile (openToWrite 0x01 configName length) fileWait
  progress .initializeUpdate 2 3
  return told

def openingInstall (image : Image) : Exchange RemoteError (UInt8 × Nat) := do
  if (checksumOf image).expected ≠ fileChecksum image.data then
    fail (.mismatch (.checksum (checksumOf image).expected (fileChecksum image.data)))
  openingUpdate image.data.length

theorem fetchFile_eq (name : String) :
    fetchFile name = (do
      let (token, length) ← openingFetch name
      let contents ← Numbered.holding token (receiveFile token length .fetchFile) (counter 1)
      pure (if name = configName then withMarker contents else contents)) := by
  unfold fetchFile fetch openingFetch
  simp only [bind_assoc]
  rfl

theorem store_eq (name : String) (data : List UInt8) :
    store name data = (do
      let (token, _) ← openingStore name data.length
      Numbered.holding token (storing token data) (counter 1) >>= pure) := by
  unfold store openingStore
  simp only [bind_assoc, bind_pure]
  rfl

theorem install_eq (image : Image) :
    install image = (do
      let (token, _) ← openingInstall image
      let _ ← Numbered.holding token (sendImage token image.data (checksumOf image)) (counter 4)
      progress .finalizeUpdate 4 4) := by
  unfold install openingInstall openingUpdate
  by_cases hchecksum : (checksumOf image).expected ≠ fileChecksum image.data
  · have hleft : (image.checksum.getD (ChecksumRecord.ofConfig image.data)).expected ≠
        fileChecksum image.data := hchecksum
    simp only [if_pos hchecksum, if_pos hleft]
    rfl
  · have hleft : ¬ (image.checksum.getD (ChecksumRecord.ofConfig image.data)).expected ≠
        fileChecksum image.data := hchecksum
    simp only [if_neg hchecksum, if_neg hleft, bind_assoc]
    rfl

theorem ensures_admitName (name : String) (limit : Nat) (past : List Step) :
    (admitName name limit).Ensures Unreleasing (fun later _ => later = past) past := by
  unfold admitName
  split
  · exact ensures_throw _
  · exact ensures_pure rfl

theorem ensures_openFile (request : UInt8 → Report) (hrequest : Carries request)
    (count timeout : Nat) (past : List Step) :
    (openFile (request (numberAt count)) timeout).Ensures Unreleasing
      (fun later _ => InStep later (counter (count + 1))) past := by
  have hread : ∀ answer, InStep
      (past ++ [.wrote (request (numberAt count)) (.ok ())] ++ [.read timeout (.ok answer)])
      (counter (count + 1)) :=
    fun answer => (inStep_wrote hrequest count _).unnumbered fun _ h => nomatch h
  refine ensures_bind (ensures_bind (ensures_send (hrequest count).2 ?_))
  refine ensures_receive fun answer => ensures_check fun _ _ => ?_
  exact hread answer

theorem ensures_openingFetch (name : String) :
    (openingFetch name).Ensures Unreleasing
      (fun later told => (receiveFile told.1 told.2 .fetchFile).Settles (counter 1) later) [] := by
  refine (ensures_admitName name 55 []).bind fun past _ _ => ?_
  refine (ensures_openFile ((openToRead · 0x02 name)) (carries_control (by decide) _) 0 _
    past).weaken fun later _ told hstep => ?_
  exact orderly_receiveFile _ _ _ later _ hstep

theorem ensures_openingStore (name : String) (data : List UInt8) :
    (openingStore name data.length).Ensures Unreleasing
      (fun later told => (storing told.1 data).Settles (counter 1) later) [] := by
  refine (ensures_admitName name 50 []).bind fun past _ _ => ?_
  refine (ensures_openFile ((openToWrite · name data.length)) (carries_control (by decide) _)
    0 _ past).weaken fun later _ told hstep => ?_
  exact orderly_storing _ _ later _ hstep

theorem ensures_openingInstall (image : Image) :
    (openingInstall image).Ensures Unreleasing
      (fun later told => (sendImage told.1 image.data (checksumOf image)).Settles (counter 4) later)
      [] := by
  unfold openingInstall
  split
  · exact ensures_bind (ensures_throw _)
  · refine ensures_bind (ensures_notify ?_)
    refine ensures_bind (ensures_bind (ensures_send (fun h => nomatch h.2) ?_))
    refine ensures_receive fun _ => ?_
    refine ensures_bind (ensures_notify ?_)
    refine (ensures_openFile ((openToWrite · configName image.data.length))
      (carries_control (by decide) _) 1 _ _).bind fun later told _ => ?_
    exact ensures_bind (ensures_notify (ensures_pure (settles_sendImage _ _ _ _)))

theorem asks_openingUpdate (length : Nat) :
    Asks (openToWrite 0x01 configName length) (openingUpdate length) := by
  have hgreet : ∀ dialogue (result : Except (Halt RemoteError) Report),
      (converse [0xFF, 0xFF, 0x00, 0x01, 0x01, 0x66] fileWait).run.Takes dialogue result →
      openToWrite 0x01 configName length ∉ dialogue.filterMap Turn.said? := by
    intro dialogue result h
    rw [filterMap_said?_of_takes_converse h, List.mem_singleton]
    exact fun heq => nomatch (List.cons.inj (List.cons.inj heq).2).1
  have hsilent : ∀ stage current total dialogue (result : Except (Halt RemoteError) Unit),
      (progress stage current total).run.Takes dialogue result →
      openToWrite 0x01 configName length ∉ dialogue.filterMap Turn.said? := by
    rintro stage current total dialogue result ⟨rfl, -⟩
    exact List.not_mem_nil
  refine .behind (hsilent _ _ _) fun _ => .behind hgreet fun _ => .behind (hsilent _ _ _) fun _ => ?_
  exact (asks_openFile _ _).progress _ _ _

theorem asks_openingInstall (image : Image) :
    Asks (openToWrite 0x01 configName image.data.length) (openingInstall image) := by
  have hupdate := asks_openingUpdate image.data.length
  unfold openingInstall
  split
  · refine .behind (fun dialogue result htakes => ?_) fun _ => hupdate
    obtain ⟨rfl, -⟩ := htakes
    exact List.not_mem_nil
  · exact hupdate

/-- Each call that is told a token releases it last, with the number behind the last one that it used,
and ends as the transfer and the release went. -/
theorem calls_release :
    (∀ name, Releases (fetchFile name)
      ([0xFF, 0x01, 0x00, 0x02, 0x80] ++ Utf8.encode name ++ [0x00, 0x80, 0x52, 0x00])
      (openingFetch name) (counter 1)
      (fun token length => receiveFile token length .fetchFile)
      (fun contents => if name = configName then withMarker contents else contents)) ∧
    (∀ name data, Releases (store name data)
      ([0xFF, 0x01, 0x00, 0x03, 0x80] ++ Utf8.encode name ++ [0x00, 0x80, 0x57, 0x00, 0x04] ++
        ByteOrder.big.bytes 4 data.length)
      (openingStore name data.length) (counter 1) (fun token _ => storing token data) id) ∧
    (∀ image, Releases (install image)
      ([0xFF, 0x01, 0x01, 0x03, 0x80] ++ Utf8.encode "/cfg/usercfg" ++
        [0x00, 0x80, 0x57, 0x00, 0x04] ++ ByteOrder.big.bytes 4 image.data.length)
      (openingInstall image) (counter 4)
      (fun token _ => sendImage token image.data (checksumOf image)) id) := by
  refine ⟨fun name => ?_, fun name data => ?_, fun image => ?_⟩
  · rw [fetchFile_eq, ← openToRead_eq]
    refine releases_of (receiveFile · · .fetchFile)
      (asks_of_admitName name 55 (asks_openFile _ _)) (ensures_openingFetch name) ?_
    exact fun device state b => ⟨rfl, rfl⟩
  · rw [store_eq, ← openToWrite_eq]
    refine releases_of (fun token _ => storing token data)
      (asks_of_admitName name 50 (asks_openFile _ _)) (ensures_openingStore name data) ?_
    exact fun device state b => ⟨rfl, rfl⟩
  · rw [install_eq, ← openToWrite_eq]
    refine releases_of (fun token _ => sendImage token image.data (checksumOf image))
      (asks_openingInstall image) (ensures_openingInstall image) ?_
    exact fun device state b => ⟨rfl, rfl⟩

end UniversalRemote.FileTransfer
