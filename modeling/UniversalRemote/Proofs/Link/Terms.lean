import UniversalRemote.Proofs.Link.Dialogue
import UniversalRemote.Proofs.Link.Faults
import UniversalRemote.Proofs.Link.Lockstep
/-!
# Exchanges within terms

Terms say which reports may be written, what an observer may be told, and with what an exchange may
end that has written or read something. An exchange is within terms if it keeps to them on every
branch that the failures which the terms admit can lead to. It is prompt if it keeps to them once
there is traffic: what it has to refuse for the sake of its arguments, it refuses before. `Prompt.run`
and `Prompt.told` carry this over to the runs on any device that fails only as the terms admit.
-/

namespace UniversalRemote

/-- Whether the host is to blame: for an argument, or for a call that comes too early. -/
def ProtocolError.ofArgument : ProtocolError → Bool
  | invalidArgument _ => true
  | notIdentified => true
  | _ => false

/-- What is granted to an exchange. Traffic that the protocol does not admit may always be refused, and
an observer may always be told of progress. -/
structure Terms where
  /-- The reports that may be written. -/
  writes : Report → Prop
  /-- The ends that an exchange may come to without an answer. -/
  ends : Halt RemoteError → Prop
  ends_protocol : ∀ cause : ProtocolError, cause.ofArgument = false → ends (.failed (.protocol cause))
  /-- What an observer may be told. -/
  tells : Event → Prop := fun _ => True
  tells_progress : ∀ stage current total, tells (.progress stage current total) := by
    intros
    trivial

/-- A failure of the link that may be met. -/
def Terms.Meets (terms : Terms) (cause : LinkError) : Prop :=
  terms.ends (.failed (.link cause))

/-- An outcome that the terms admit: an answer, or a failure that may be an end. -/
def Terms.Admits (terms : Terms) (outcome : Except RemoteError α) : Prop :=
  ∀ cause, outcome = .error cause → terms.ends (.failed cause)

theorem Terms.admits_error {terms : Terms} {cause : RemoteError} (h : terms.ends (.failed cause)) :
    terms.Admits (.error cause : Except RemoteError α) := by
  intro other hother
  cases hother
  exact h

def Terms.Allows (terms : Terms) : Step → Prop
  | .wrote report _ => terms.writes report
  | .read _ _ => True
  | .told event => terms.tells event

section Steps

variable {terms : Terms} {trace : List Step} (h : ∀ step ∈ trace, terms.Allows step)
include h

theorem Terms.writes_of_allows : ∀ report ∈ trace.filterMap Step.written?, terms.writes report := by
  intro report hreport
  obtain ⟨step, hstep, hwritten⟩ := List.mem_filterMap.1 hreport
  cases step with
  | wrote other outcome =>
    cases hwritten
    exact h _ hstep
  | read | told => cases hwritten

theorem Terms.tells_of_allows : ∀ event ∈ trace.filterMap Step.event?, terms.tells event := by
  intro event hevent
  obtain ⟨step, hstep, htold⟩ := List.mem_filterMap.1 hevent
  cases step with
  | told other =>
    cases htold
    exact h _ hstep
  | wrote | read => cases htold

end Steps

/-- In certain states, a device that is written what the terms admit fails only as they admit, and it
stays in such states. -/
structure Device.Honours (device : Device σ) (terms : Terms) (inv : σ → Prop) : Prop where
  write : ∀ report s, inv s → terms.writes report → inv (device.write report s).2 ∧
    ∀ cause, (device.write report s).1 = .error cause → terms.Meets cause
  read : ∀ timeout s, inv s → inv (device.read timeout s).2 ∧
    ∀ cause, (device.read timeout s).1 = .error cause → terms.Meets cause

theorem Device.honours_of_forall {terms : Terms} (h : ∀ cause, terms.Meets cause)
    (device : Device σ) : device.Honours terms fun _ => True :=
  ⟨fun _ _ _ _ => ⟨trivial, fun cause _ => h cause⟩, fun _ _ _ => ⟨trivial, fun cause _ => h cause⟩⟩

namespace Program

variable {terms : Terms} {ends idle : α → Prop} {p : Program α}

/-- All reports, events and ends of a program are within terms, where failures are those that the terms
admit. -/
def Within (terms : Terms) (ends : α → Prop) : Program α → Prop
  | .done a => ends a
  | .write report next => terms.writes report ∧ (next (.ok ())).Within terms ends ∧
    ∀ cause, terms.Meets cause → (next (.error cause)).Within terms ends
  | .read _ next => (∀ report, (next (.ok report)).Within terms ends) ∧
    ∀ cause, terms.Meets cause → (next (.error cause)).Within terms ends
  | .notify event next => terms.tells event ∧ next.Within terms ends

/-- Once something is written or read, a program is within terms. -/
def Prompt (terms : Terms) (ends idle : α → Prop) : Program α → Prop
  | .done a => idle a
  | .write report next => (write report next).Within terms ends
  | .read timeout next => (read timeout next).Within terms ends
  | .notify event next => terms.tells event ∧ next.Prompt terms ends idle

theorem Within.bind {ends' : β → Prop} {f : α → Program β} (h : p.Within terms ends)
    (hf : ∀ a, ends a → (f a).Within terms ends') : (p.bind f).Within terms ends' := by
  induction p with
  | done a => exact hf a h
  | write report next ih =>
    exact ⟨h.1, ih _ h.2.1, fun cause hcause => ih _ (h.2.2 cause hcause)⟩
  | read timeout next ih =>
    exact ⟨fun report => ih _ (h.1 report), fun cause hcause => ih _ (h.2 cause hcause)⟩
  | notify event next ih => exact ⟨h.1, ih h.2⟩

theorem Within.prompt (h : p.Within terms ends) (hidle : ∀ a, ends a → idle a) :
    p.Prompt terms ends idle := by
  induction p with
  | done a => exact hidle a h
  | write report next => exact h
  | read timeout next => exact h
  | notify event next ih => exact ⟨h.1, ih h.2⟩

theorem Prompt.within (h : p.Prompt terms ends idle) (hidle : ∀ a, idle a → ends a) :
    p.Within terms ends := by
  induction p with
  | done a => exact hidle a h
  | write report next => exact h
  | read timeout next => exact h
  | notify event next ih => exact ⟨h.1, ih h.2⟩

theorem Prompt.bind {ends' idle' : β → Prop} {f : α → Program β} (h : p.Prompt terms ends idle)
    (hends : ∀ a, ends a → (f a).Within terms ends')
    (hidle : ∀ a, idle a → (f a).Prompt terms ends' idle') :
    (p.bind f).Prompt terms ends' idle' := by
  induction p with
  | done a => exact hidle a h
  | write report next => exact Within.bind (p := write report next) h hends
  | read timeout next => exact Within.bind (p := read timeout next) h hends
  | notify event next ih => exact ⟨h.1, ih h.2⟩

/-- What a program within terms writes in a dialogue, where the terms admit every failure. -/
theorem Within.said {terms : Terms} {ends : α → Prop} {p : Program α} (h : p.Within terms ends)
    (hmeets : ∀ cause, terms.Meets cause) {dialogue : List Turn} {a : α} (hp : p.Takes dialogue a) :
    ends a ∧ ∀ report ∈ dialogue.filterMap Turn.said?, terms.writes report := by
  induction p generalizing dialogue with
  | done b =>
    obtain ⟨rfl, rfl⟩ := hp
    exact ⟨h, nofun⟩
  | write report next ih =>
    obtain ⟨outcome, rest, rfl, hp⟩ := hp
    have hnext : (next outcome).Within terms ends := by
      cases outcome with
      | ok _ => exact h.2.1
      | error cause => exact h.2.2 cause (hmeets cause)
    obtain ⟨hends, hrest⟩ := ih outcome hnext hp
    exact ⟨hends, List.forall_mem_cons.2 ⟨h.1, hrest⟩⟩
  | read timeout next ih =>
    obtain ⟨outcome, rest, rfl, hp⟩ := hp
    have hnext : (next outcome).Within terms ends := by
      cases outcome with
      | ok report => exact h.1 report
      | error cause => exact h.2 cause (hmeets cause)
    obtain ⟨hends, hrest⟩ := ih outcome hnext hp
    exact ⟨hends, hrest⟩
  | notify event next ih => exact ih h.2 hp

section Runs

variable {device : Device σ} {inv : σ → Prop} {state : σ}

theorem Within.run (h : p.Within terms ends) (hdevice : device.Honours terms inv)
    (hstate : inv state) :
    ends (p.run device state).result ∧ ∀ step ∈ (p.run device state).trace, terms.Allows step := by
  induction p generalizing state with
  | done a => exact ⟨h, nofun⟩
  | write report next ih =>
    rw [run_write]
    obtain ⟨hafter, hmeets⟩ := hdevice.write report state hstate h.1
    generalize device.write report state = answer at hafter hmeets
    obtain ⟨outcome, after⟩ := answer
    have hnext : (next outcome).Within terms ends := by
      cases outcome with
      | ok _ => exact h.2.1
      | error cause => exact h.2.2 cause (hmeets cause rfl)
    obtain ⟨hends, hsteps⟩ := ih outcome hnext hafter
    exact ⟨hends, List.forall_mem_cons.2 ⟨h.1, hsteps⟩⟩
  | read timeout next ih =>
    rw [run_read]
    obtain ⟨hafter, hmeets⟩ := hdevice.read timeout state hstate
    generalize device.read timeout state = answer at hafter hmeets
    obtain ⟨outcome, after⟩ := answer
    have hnext : (next outcome).Within terms ends := by
      cases outcome with
      | ok report => exact h.1 report
      | error cause => exact h.2 cause (hmeets cause rfl)
    obtain ⟨hends, hsteps⟩ := ih outcome hnext hafter
    exact ⟨hends, List.forall_mem_cons.2 ⟨trivial, hsteps⟩⟩
  | notify event next ih =>
    rw [run_notify]
    obtain ⟨hends, hsteps⟩ := ih h.2 hstate
    exact ⟨hends, List.forall_mem_cons.2 ⟨h.1, hsteps⟩⟩

/-- The steps of a prompt program are within terms, and so is its end, unless there was no traffic. -/
theorem Prompt.run (h : p.Prompt terms ends idle) (hdevice : device.Honours terms inv)
    (hstate : inv state) :
    (∀ step ∈ (p.run device state).trace, terms.Allows step) ∧
      (ends (p.run device state).result ∨
        idle (p.run device state).result ∧ transfers (p.run device state).trace = []) := by
  induction p with
  | done a => exact ⟨nofun, .inr ⟨h, rfl⟩⟩
  | write report next =>
    have hrun := Within.run (p := write report next) h hdevice hstate
    exact ⟨hrun.2, .inl hrun.1⟩
  | read timeout next =>
    have hrun := Within.run (p := read timeout next) h hdevice hstate
    exact ⟨hrun.2, .inl hrun.1⟩
  | notify event next ih =>
    rw [run_notify]
    obtain ⟨hsteps, hends⟩ := ih h.2
    exact ⟨List.forall_mem_cons.2 ⟨h.1, hsteps⟩, hends⟩

end Runs

end Program

/-! ## Answers that put the blame on nobody -/

/-- The host is not to blame where there is no answer. -/
def Blameless (answer : Except ProtocolError α) : Prop :=
  ∀ cause, answer = .error cause → cause.ofArgument = false

theorem blameless_ok (a : α) : Blameless (.ok a) := nofun

theorem blameless_error {cause : ProtocolError} (h : cause.ofArgument = false) :
    Blameless (.error cause : Except ProtocolError α) := by
  intro other hother
  cases hother
  exact h

theorem Blameless.bind {answer : Except ProtocolError α} {f : α → Except ProtocolError β}
    (h : Blameless answer) (hf : ∀ a, Blameless (f a)) : Blameless (answer >>= f) := by
  cases answer with
  | ok a => exact hf a
  | error cause => exact blameless_error (h cause rfl)

theorem Blameless.map {answer : Except ProtocolError α} (h : Blameless answer) (f : α → β) :
    Blameless (answer.map f) := by
  cases answer with
  | ok a => exact blameless_ok _
  | error cause => exact blameless_error (h cause rfl)

theorem Sequence.blameless_accept (s : Sequence) (actual : UInt8) : Blameless (s.accept actual) := by
  by_cases h : actual = s.current
  · rw [Sequence.accept_eq_ok_iff.2 ⟨h, rfl⟩]
    exact blameless_ok _
  · rw [Sequence.accept_of_ne h]
    exact blameless_error rfl

/-! ## Exchanges -/

namespace Exchange

variable {terms : Terms}

def Within (terms : Terms) (x : Exchange RemoteError α) : Prop :=
  x.run.Within terms fun result => ∀ halt, result = .error halt → terms.ends halt

/-- Once something is written or read, an exchange is within terms, and no failure of the link is
reported before. -/
def Prompt (terms : Terms) (x : Exchange RemoteError α) : Prop :=
  x.run.Prompt terms (fun result => ∀ halt, result = .error halt → terms.ends halt)
    fun result => ∀ halt, result = .error halt → terms.ends halt ∨ halt.link? = none

theorem within_pure (a : α) : (pure a : Exchange RemoteError α).Within terms :=
  fun _ h => nomatch h

theorem within_throw {halt : Halt RemoteError} (h : terms.ends halt) :
    (throw halt : Exchange RemoteError α).Within terms := by
  intro other hother
  cases hother
  exact h

theorem within_refuse {cause : ProtocolError} (h : cause.ofArgument = false) :
    (refuse cause : Exchange RemoteError α).Within terms :=
  within_throw (terms.ends_protocol cause h)

theorem Within.bind {x : Exchange RemoteError α} {f : α → Exchange RemoteError β}
    (h : x.Within terms) (hf : ∀ a, (f a).Within terms) : (x >>= f).Within terms := by
  refine Program.Within.bind h fun result hresult => ?_
  cases result with
  | ok a => exact hf a
  | error halt => exact within_throw (hresult halt rfl)

/-- What goes on only where a condition does not hold. -/
theorem within_unless {condition : Prop} [Decidable condition] {x : Exchange RemoteError PUnit}
    {f : PUnit → Exchange RemoteError α} (hx : x.Within terms) (hf : (f ⟨⟩).Within terms) :
    (if condition then x >>= f else f ⟨⟩).Within terms := by
  split
  · exact hx.bind fun _ => hf
  · exact hf

theorem within_send {report : Report} (h : terms.writes report) : (send report).Within terms := by
  refine ⟨h, nofun, fun cause hcause halt hhalt => ?_⟩
  cases hhalt
  exact hcause

theorem within_receive (timeout : Nat) : (receive timeout).Within terms := by
  refine ⟨fun _ => nofun, fun cause hcause halt hhalt => ?_⟩
  cases hhalt
  exact hcause

theorem within_progress (stage : Stage) (current total : Nat) :
    (progress stage current total : Exchange RemoteError Unit).Within terms :=
  ⟨terms.tells_progress stage current total, fun _ h => nomatch h⟩

theorem within_check {answer : Except ProtocolError α} (h : Blameless answer) :
    (check answer).Within terms := by
  cases answer with
  | ok a => exact within_pure a
  | error cause => exact within_refuse (h cause rfl)

theorem within_ofChecked {value : Option α} (h : value = none → terms.ends .overflow) :
    (ofChecked value : Exchange RemoteError α).Within terms := by
  cases value with
  | some a => exact within_pure a
  | none => exact within_throw (h rfl)

/-- What is done behind an exchange that is tried has to be within terms whatever came of it. -/
theorem within_attempt_bind {x : Exchange RemoteError α}
    {f : Except RemoteError α → Exchange RemoteError β} (h : x.Within terms)
    (hf : ∀ outcome, terms.Admits outcome → (f outcome).Within terms) :
    (attempt x >>= f).Within terms := by
  change ((x.run.bind _).bind _).Within terms _
  rw [Program.bind_assoc]
  refine Program.Within.bind h fun result hresult => ?_
  match result with
  | .ok a => exact hf (.ok a) nofun
  | .error (.failed cause) => exact hf (.error cause) (Terms.admits_error (hresult _ rfl))
  | .error .overflow => exact within_throw (hresult _ rfl)
  | .error .stalled => exact within_throw (hresult _ rfl)

/-- The end behind two exchanges that have been tried is the end of one of them. -/
theorem within_first {outcome : Except RemoteError α} {closed : Except RemoteError β}
    (houtcome : terms.Admits outcome) (hclosed : terms.Admits closed) :
    (first outcome closed).Within terms := by
  match outcome, closed with
  | .error cause, _ => exact within_throw (houtcome cause rfl)
  | .ok _, .error cause => exact within_throw (hclosed cause rfl)
  | .ok a, .ok _ => exact within_pure a

/-! ### What is refused beforehand -/

theorem Within.prompt {x : Exchange RemoteError α} (h : x.Within terms) : x.Prompt terms :=
  Program.Within.prompt h fun _ hresult halt hhalt => .inl (hresult halt hhalt)

/-- Where the terms have nothing against it, it does not matter what comes before any traffic. -/
theorem Prompt.within {x : Exchange RemoteError α} (h : x.Prompt terms)
    (hidle : ∀ halt : Halt RemoteError, halt.link? = none → terms.ends halt) : x.Within terms :=
  Program.Prompt.within h fun _ hresult halt hhalt => (hresult halt hhalt).elim id (hidle halt)

theorem prompt_throw {halt : Halt RemoteError} (h : halt.link? = none) :
    (throw halt : Exchange RemoteError α).Prompt terms := by
  intro other hother
  cases hother
  exact .inr h

theorem prompt_refuse (cause : ProtocolError) :
    (refuse cause : Exchange RemoteError α).Prompt terms :=
  prompt_throw rfl

theorem Prompt.bind {x : Exchange RemoteError α} {f : α → Exchange RemoteError β}
    (h : x.Prompt terms) (hf : ∀ a, (f a).Within terms) : (x >>= f).Prompt terms := by
  refine Program.Prompt.bind h (fun result hresult => ?_) fun result hresult => ?_
  · cases result with
    | ok a => exact hf a
    | error halt => exact within_throw (hresult halt rfl)
  · cases result with
    | ok a => exact (hf a).prompt
    | error halt =>
      intro other hother
      cases hother
      exact hresult halt rfl

theorem prompt_check_bind {answer : Except ProtocolError α} {f : α → Exchange RemoteError β}
    (hf : ∀ a, answer = .ok a → (f a).Prompt terms) : (check answer >>= f).Prompt terms := by
  cases answer with
  | ok a => exact hf a rfl
  | error cause => exact prompt_refuse cause

theorem prompt_checkHalt_bind {answer : Except (Halt ProtocolError) α}
    {f : α → Exchange RemoteError β} (hf : ∀ a, answer = .ok a → (f a).Prompt terms) :
    (checkHalt answer >>= f).Prompt terms := by
  cases answer with
  | ok a => exact hf a rfl
  | error halt =>
    refine prompt_throw ?_
    cases halt with
    | failed cause => rfl
    | overflow => rfl
    | stalled => rfl

/-- What goes on only where a condition does not hold, which is found out without traffic. -/
theorem prompt_unless {condition : Prop} [Decidable condition] {halt : Halt RemoteError}
    {f : PUnit → Exchange RemoteError α} (hhalt : halt.link? = none)
    (hf : ¬ condition → (f ⟨⟩).Prompt terms) :
    (if condition then (throw halt : Exchange RemoteError PUnit) >>= f else f ⟨⟩).Prompt terms := by
  split
  · exact prompt_throw hhalt
  · exact hf ‹_›

section Runs

variable {x : Exchange RemoteError α} (h : x.Prompt terms) {device : Device σ} {inv : σ → Prop}
  (hdevice : device.Honours terms inv) {state : σ} (hstate : inv state)
include h hdevice hstate

/-- What a prompt exchange writes is within terms, and so is its end, unless there was no traffic. -/
theorem Prompt.run :
    (∀ report ∈ (x.run.run device state).trace.filterMap Step.written?, terms.writes report) ∧
      ∀ halt, (x.run.run device state).result = .error halt → terms.ends halt ∨
        halt.link? = none ∧ transfers (x.run.run device state).trace = [] := by
  obtain ⟨hsteps, hends⟩ := Program.Prompt.run h hdevice hstate
  refine ⟨Terms.writes_of_allows hsteps, fun halt hhalt => ?_⟩
  rcases hends with hends | ⟨hidle, htraffic⟩
  · exact .inl (hends halt hhalt)
  · exact (hidle halt hhalt).imp_right fun hlink => ⟨hlink, htraffic⟩

/-- What a prompt exchange tells an observer is within terms. -/
theorem Prompt.told :
    ∀ event ∈ (x.run.run device state).trace.filterMap Step.event?, terms.tells event :=
  Terms.tells_of_allows (Program.Prompt.run h hdevice hstate).1

end Runs

end Exchange

end UniversalRemote
