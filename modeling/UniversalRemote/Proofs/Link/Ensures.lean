import UniversalRemote.Link.Device
import UniversalRemote.Session.Basic
/-!
# What is written, whatever the device does

Whether a report may be written can depend on all that has gone over the link before it. `Ensures`
says that a program keeps to such a rule on every branch, and in what it ends; `Ensures.run` carries
this over to the runs on any device. Exchanges and operations of sessions have rules of their own,
one for each way in which they are put together.
-/

namespace UniversalRemote

namespace Step

@[simp] theorem written?_wrote (report : Report) (outcome : Except LinkError Unit) :
    (wrote report outcome).written? = some report := rfl

@[simp] theorem written?_read (timeout : Nat) (outcome : Except LinkError Report) :
    (read timeout outcome).written? = none := rfl

@[simp] theorem written?_told (event : Event) : (told event).written? = none := rfl

end Step

theorem prefix_snoc {past later : List Step} (h : past <+: later) (step : Step) :
    past <+: later ++ [step] :=
  h.trans (List.prefix_append later [step])

theorem infix_snoc_snoc (past : List Step) (first second : Step) :
    [first, second] <:+: past ++ [first] ++ [second] := by
  rw [List.append_assoc]
  exact (List.suffix_append past _).isInfix

namespace Program

/-- Behind some steps a program writes only what is allowed there, and ends as stated. -/
def Ensures (allowed : List Step → Report → Prop) (post : List Step → α → Prop) :
    Program α → List Step → Prop
  | .done a, past => post past a
  | .write report next, past => allowed past report ∧
    ∀ outcome, (next outcome).Ensures allowed post (past ++ [.wrote report outcome])
  | .read timeout next, past =>
    ∀ outcome, (next outcome).Ensures allowed post (past ++ [.read timeout outcome])
  | .notify event next, past => next.Ensures allowed post (past ++ [.told event])

variable {allowed allowed' : List Step → Report → Prop} {post post' : List Step → α → Prop}
  {past : List Step} {p : Program α}

theorem ensures_bind {post : List Step → β → Prop} {f : α → Program β}
    (h : p.Ensures allowed (fun past a => (f a).Ensures allowed post past) past) :
    (p.bind f).Ensures allowed post past := by
  induction p generalizing past with
  | done => exact h
  | write report next ih => exact ⟨h.1, fun outcome => ih outcome (h.2 outcome)⟩
  | read timeout next ih => exact fun outcome => ih outcome (h outcome)
  | notify event next ih => exact ih h

/-- A rule may be exchanged for another one that agrees with it from the given steps on. -/
theorem Ensures.mono (h : p.Ensures allowed post past)
    (hallowed : ∀ later, past <+: later → ∀ report, allowed later report → allowed' later report)
    (hpost : ∀ later, past <+: later → ∀ a, post later a → post' later a) :
    p.Ensures allowed' post' past := by
  induction p generalizing past with
  | done a => exact hpost past (List.prefix_refl past) a h
  | write report next ih =>
    refine ⟨hallowed past (List.prefix_refl past) report h.1, fun outcome => ?_⟩
    have hlater := List.prefix_append past [Step.wrote report outcome]
    exact ih outcome (h.2 outcome) (fun later h' => hallowed later (hlater.trans h'))
      (fun later h' => hpost later (hlater.trans h'))
  | read timeout next ih =>
    intro outcome
    have hlater := List.prefix_append past [Step.read timeout outcome]
    exact ih outcome (h outcome) (fun later h' => hallowed later (hlater.trans h'))
      (fun later h' => hpost later (hlater.trans h'))
  | notify event next ih =>
    have hlater := List.prefix_append past [Step.told event]
    exact ih h (fun later h' => hallowed later (hlater.trans h'))
      (fun later h' => hpost later (hlater.trans h'))

theorem Ensures.weaken (h : p.Ensures allowed post past)
    (hpost : ∀ later, past <+: later → ∀ a, post later a → post' later a) :
    p.Ensures allowed post' past :=
  h.mono (fun _ _ _ hallowed => hallowed) hpost

theorem Ensures.and (h : p.Ensures allowed post past) (h' : p.Ensures allowed post' past) :
    p.Ensures allowed (fun past a => post past a ∧ post' past a) past := by
  induction p generalizing past with
  | done a => exact ⟨h, h'⟩
  | write report next ih => exact ⟨h.1, fun outcome => ih outcome (h.2 outcome) (h'.2 outcome)⟩
  | read timeout next ih => exact fun outcome => ih outcome (h outcome) (h' outcome)
  | notify event next ih => exact ih h h'

/-- Each report of a trace behind some steps, whether or not its write succeeded, was allowed behind
the steps before it. -/
def Obeys (allowed : List Step → Report → Prop) (past trace : List Step) : Prop :=
  ∀ before report outcome after, trace = before ++ .wrote report outcome :: after →
    allowed (past ++ before) report

theorem obeys_cons {step : Step} {trace : List Step}
    (hstep : ∀ report outcome, step = .wrote report outcome → allowed past report)
    (htrace : Obeys allowed (past ++ [step]) trace) : Obeys allowed past (step :: trace) := by
  intro before report outcome after heq
  rcases List.cons_eq_append_iff.1 heq with ⟨rfl, hhead⟩ | ⟨rest, rfl, hrest⟩
  · rw [List.append_nil]
    exact hstep report outcome (List.cons.inj hhead).1.symm
  · have := htrace rest report outcome after hrest
    rwa [List.append_assoc] at this

theorem exists_wrote_of_mem {report : Report} {trace : List Step}
    (h : report ∈ trace.filterMap Step.written?) :
    ∃ before outcome after, trace = before ++ .wrote report outcome :: after := by
  obtain ⟨step, hstep, hwritten⟩ := List.mem_filterMap.1 h
  obtain ⟨before, after, heq⟩ := List.append_of_mem hstep
  cases step with
  | wrote other outcome =>
    obtain rfl : other = report := Option.some.inj hwritten
    exact ⟨before, outcome, after, heq⟩
  | read timeout outcome => exact nomatch hwritten
  | told event => exact nomatch hwritten

/-- Where it does not matter what stands before a report, a rule holds of all that is written. -/
theorem Obeys.written {harmless : Report → Prop} {trace : List Step}
    (h : Obeys (fun _ => harmless) past trace) :
    ∀ report ∈ trace.filterMap Step.written?, harmless report := by
  intro report hreport
  obtain ⟨before, outcome, after, htrace⟩ := exists_wrote_of_mem hreport
  exact h before report outcome after htrace

/-- What a program ensures holds of its run on any device. -/
theorem Ensures.run (h : p.Ensures allowed post past) (device : Device σ) (state : σ) :
    post (past ++ (p.run device state).trace) (p.run device state).result ∧
      Obeys allowed past (p.run device state).trace := by
  induction p generalizing past state with
  | done a =>
    simp only [Program.run, runFrom, List.reverse_nil, List.append_nil]
    exact ⟨h, by simp [Obeys]⟩
  | write report next ih =>
    rw [run_write]
    obtain ⟨hpost, hobeys⟩ := ih _ (h.2 (device.write report state).1) (device.write report state).2
    rw [List.append_assoc] at hpost
    refine ⟨hpost, obeys_cons (fun other outcome hstep => ?_) hobeys⟩
    cases hstep
    exact h.1
  | read timeout next ih =>
    rw [run_read]
    obtain ⟨hpost, hobeys⟩ := ih _ (h (device.read timeout state).1) (device.read timeout state).2
    rw [List.append_assoc] at hpost
    refine ⟨hpost, obeys_cons (fun other outcome hstep => ?_) hobeys⟩
    cases hstep
  | notify event next ih =>
    rw [run_notify]
    obtain ⟨hpost, hobeys⟩ := ih h state
    rw [List.append_assoc] at hpost
    refine ⟨hpost, obeys_cons (fun other outcome hstep => ?_) hobeys⟩
    cases hstep

theorem ensures_of_forall (hallowed : ∀ later report, allowed later report)
    (hpost : ∀ later a, post later a) (p : Program α) (past : List Step) :
    p.Ensures allowed post past := by
  induction p generalizing past with
  | done a => exact hpost past a
  | write report next ih => exact ⟨hallowed past report, fun outcome => ih outcome _⟩
  | read timeout next ih => exact fun outcome => ih outcome _
  | notify event next ih => exact ih _

/-! ## Programs that write nothing of a kind -/

/-- All that a program writes is harmless. -/
def Writes (harmless : Report → Prop) : Program α → Prop
  | .done _ => True
  | .write report next => harmless report ∧ ∀ outcome, (next outcome).Writes harmless
  | .read _ next => ∀ outcome, (next outcome).Writes harmless
  | .notify _ next => next.Writes harmless

/-- All that has been written behind some earlier steps is harmless. -/
def Quiet (harmless : Report → Prop) (past later : List Step) : Prop :=
  ∃ more, later = past ++ more ∧ ∀ report ∈ more.filterMap Step.written?, harmless report

variable {harmless : Report → Prop}

theorem writes_bind {f : α → Program β} (h : p.Writes harmless) (hf : ∀ a, (f a).Writes harmless) :
    (p.bind f).Writes harmless := by
  induction p with
  | done a => exact hf a
  | write report next ih => exact ⟨h.1, fun outcome => ih outcome (h.2 outcome)⟩
  | read timeout next ih => exact fun outcome => ih outcome (h outcome)
  | notify event next ih => exact ih h

theorem quiet_refl (past : List Step) : Quiet harmless past past :=
  ⟨[], by simp, by simp⟩

theorem Quiet.trans {earlier later : List Step} (h : Quiet harmless earlier past)
    (h' : Quiet harmless past later) : Quiet harmless earlier later := by
  obtain ⟨more, rfl, hmore⟩ := h
  obtain ⟨rest, rfl, hrest⟩ := h'
  refine ⟨more ++ rest, List.append_assoc _ _ _, fun report hreport => ?_⟩
  rw [List.filterMap_append, List.mem_append] at hreport
  exact hreport.elim (hmore report) (hrest report)

theorem quiet_step {step : Step} (h : ∀ report, step.written? = some report → harmless report) :
    Quiet harmless past (past ++ [step]) := by
  refine ⟨[step], rfl, fun report hreport => ?_⟩
  obtain ⟨other, hother, hwritten⟩ := List.mem_filterMap.1 hreport
  obtain rfl : other = step := List.mem_singleton.1 hother
  exact h report hwritten

/-- A program that writes only what is harmless does so wherever that is allowed. -/
theorem Writes.ensures (h : p.Writes harmless)
    (hallowed : ∀ later report, harmless report → allowed later report) (past : List Step) :
    p.Ensures allowed (fun later _ => Quiet harmless past later) past := by
  -- what is quiet behind a quiet step is quiet behind the steps before it
  have hbehind : ∀ {past : List Step} {step : Step} {q : Program α},
      (∀ report, step.written? = some report → harmless report) →
      q.Ensures allowed (fun later _ => Quiet harmless (past ++ [step]) later) (past ++ [step]) →
      q.Ensures allowed (fun later _ => Quiet harmless past later) (past ++ [step]) := by
    intro past step q hstep hq
    exact hq.weaken fun _ _ _ hquiet => (quiet_step hstep).trans hquiet
  induction p generalizing past with
  | done a => exact quiet_refl past
  | write report next ih =>
    refine ⟨hallowed past report h.1, fun outcome => hbehind ?_ (ih outcome (h.2 outcome) _)⟩
    intro other hother
    obtain rfl : report = other := Option.some.inj hother
    exact h.1
  | read timeout next ih =>
    exact fun outcome => hbehind (fun _ hnone => nomatch hnone) (ih outcome (h outcome) _)
  | notify event next ih => exact hbehind (fun _ hnone => nomatch hnone) (ih h _)

/-- A program that may write nothing leaves what was written as it is. -/
theorem Ensures.silent (h : p.Ensures (fun _ _ => False) post past) :
    p.Ensures allowed (fun later a => past <+: later ∧
      later.filterMap Step.written? = past.filterMap Step.written? ∧ post later a) past := by
  -- what is kept behind a step that is no write is kept behind the steps before it
  have hbehind : ∀ {past : List Step} {step : Step} {q : Program α}, step.written? = none →
      q.Ensures allowed (fun later a => past ++ [step] <+: later ∧
        later.filterMap Step.written? = (past ++ [step]).filterMap Step.written? ∧ post later a)
        (past ++ [step]) →
      q.Ensures allowed (fun later a => past <+: later ∧
        later.filterMap Step.written? = past.filterMap Step.written? ∧ post later a)
        (past ++ [step]) := by
    intro past step q hstep hq
    refine hq.weaken fun later _ a ha => ⟨(List.prefix_append past [step]).trans ha.1, ?_, ha.2.2⟩
    rw [ha.2.1, List.filterMap_append, List.filterMap_cons_none hstep, List.filterMap_nil,
      List.append_nil]
  induction p generalizing past with
  | done a => exact ⟨List.prefix_refl past, rfl, h⟩
  | write report next ih => exact h.1.elim
  | read timeout next ih => exact fun outcome => hbehind rfl (ih outcome (h outcome))
  | notify event next ih => exact hbehind rfl (ih h)

/-- All that the run of a harmless program writes is harmless. -/
theorem Writes.run (h : p.Writes harmless) (device : Device σ) (state : σ) :
    ∀ report ∈ (p.run device state).trace.filterMap Step.written?, harmless report := by
  have hensures : p.Ensures (fun _ => harmless) (fun later _ => Quiet harmless [] later) [] :=
    h.ensures (fun _ _ hharmless => hharmless) []
  exact (hensures.run device state).2.written

end Program

/-! ## Exchanges -/

namespace Exchange

variable {allowed : List Step → Report → Prop} {past : List Step}

/-- What an exchange writes is allowed, and where it has an answer, it is as stated. -/
def Ensures (allowed : List Step → Report → Prop) (post : List Step → α → Prop) (x : Exchange ε α)
    (past : List Step) : Prop :=
  x.run.Ensures allowed (fun later result => ∀ a, result = .ok a → post later a) past

theorem Ensures.mono {allowed' : List Step → Report → Prop} {post post' : List Step → α → Prop}
    {x : Exchange ε α} (h : x.Ensures allowed post past)
    (hallowed : ∀ later, past <+: later → ∀ report, allowed later report → allowed' later report)
    (hpost : ∀ later, past <+: later → ∀ a, post later a → post' later a) :
    x.Ensures allowed' post' past :=
  Program.Ensures.mono h hallowed fun later hlater _ hresult a ha =>
    hpost later hlater a (hresult a ha)

theorem Ensures.weaken {post post' : List Step → α → Prop} {x : Exchange ε α}
    (h : x.Ensures allowed post past)
    (hpost : ∀ later, past <+: later → ∀ a, post later a → post' later a) :
    x.Ensures allowed post' past :=
  h.mono (fun _ _ _ hallowed => hallowed) hpost

theorem ensures_pure {post : List Step → α → Prop} {a : α} (h : post past a) :
    (pure a : Exchange ε α).Ensures allowed post past := by
  intro b hb
  cases hb
  exact h

theorem ensures_throw {post : List Step → α → Prop} (halt : Halt ε) :
    (throw halt : Exchange ε α).Ensures allowed post past :=
  fun _ hb => nomatch hb

theorem ensures_bind {post : List Step → β → Prop} {x : Exchange ε α} {f : α → Exchange ε β}
    (h : x.Ensures allowed (fun later a => (f a).Ensures allowed post later) past) :
    (x >>= f).Ensures allowed post past := by
  apply Program.ensures_bind
  apply Program.Ensures.weaken h
  intro later _ result hresult
  cases result with
  | ok a => exact hresult a rfl
  | error halt => exact fun _ hb => nomatch hb

theorem Ensures.bind {middle : List Step → α → Prop} {post : List Step → β → Prop}
    {x : Exchange ε α} {f : α → Exchange ε β} (h : x.Ensures allowed middle past)
    (hf : ∀ later a, middle later a → (f a).Ensures allowed post later) :
    (x >>= f).Ensures allowed post past :=
  ensures_bind (h.weaken fun later _ a hmiddle => hf later a hmiddle)

theorem ensures_send {post : List Step → Unit → Prop} {report : Report}
    (hallowed : allowed past report) (h : post (past ++ [.wrote report (.ok ())]) ()) :
    (send report).Ensures allowed post past := by
  refine ⟨hallowed, fun outcome => ?_⟩
  cases outcome with
  | ok _ => exact fun _ _ => h
  | error cause => exact fun _ hb => nomatch hb

theorem ensures_receive {post : List Step → Report → Prop} {timeout : Nat}
    (h : ∀ report, post (past ++ [.read timeout (.ok report)]) report) :
    (receive timeout).Ensures allowed post past := by
  intro outcome
  cases outcome with
  | ok report =>
    intro b hb
    cases hb
    exact h report
  | error cause => exact fun _ hb => nomatch hb

theorem ensures_notify {post : List Step → Unit → Prop} {event : Event}
    (h : post (past ++ [.told event]) ()) :
    (notify event : Exchange ε Unit).Ensures allowed post past :=
  fun _ _ => h

theorem ensures_ofChecked {post : List Step → α → Prop} {value : Option α}
    (h : ∀ a, value = some a → post past a) :
    (ofChecked value : Exchange ε α).Ensures allowed post past := by
  cases value with
  | some a => exact ensures_pure (h a rfl)
  | none => exact ensures_throw _

theorem ensures_check {post : List Step → α → Prop} {answer : Except ProtocolError α}
    (h : ∀ a, answer = .ok a → post past a) : (check answer).Ensures allowed post past := by
  cases answer with
  | ok a => exact ensures_pure (h a rfl)
  | error cause => exact ensures_throw _

theorem ensures_checkHalt {post : List Step → α → Prop}
    {answer : Except (Halt ProtocolError) α} (h : ∀ a, answer = .ok a → post past a) :
    (checkHalt answer).Ensures allowed post past := by
  cases answer with
  | ok a => exact ensures_pure (h a rfl)
  | error halt => exact ensures_throw _

/-! ### Exchanges that write nothing of a kind -/

def Writes (harmless : Report → Prop) (x : Exchange ε α) : Prop :=
  x.run.Writes harmless

variable {harmless : Report → Prop}

theorem writes_pure (a : α) : (pure a : Exchange ε α).Writes harmless := trivial

theorem writes_throw (halt : Halt ε) : (throw halt : Exchange ε α).Writes harmless := trivial

theorem writes_bind {x : Exchange ε α} {f : α → Exchange ε β} (h : x.Writes harmless)
    (hf : ∀ a, (f a).Writes harmless) : (x >>= f).Writes harmless := by
  apply Program.writes_bind h
  intro result
  cases result with
  | ok a => exact hf a
  | error halt => trivial

theorem writes_send {report : Report} (h : harmless report) : (send report).Writes harmless :=
  ⟨h, fun _ => trivial⟩

theorem writes_receive (timeout : Nat) : (receive timeout).Writes harmless := fun _ => trivial

theorem writes_notify (event : Event) : (notify event : Exchange ε Unit).Writes harmless := trivial

theorem writes_ofChecked (value : Option α) :
    (ofChecked value : Exchange ε α).Writes harmless := by
  cases value <;> trivial

theorem writes_check (answer : Except ProtocolError α) : (check answer).Writes harmless := by
  cases answer <;> trivial

theorem writes_attempt {x : Exchange ε α} (h : x.Writes harmless) :
    (attempt x : Exchange δ (Except ε α)).Writes harmless := by
  apply Program.writes_bind h
  intro result
  rcases result with (_ | _ | _) | a
  all_goals trivial

theorem Writes.ensures {x : Exchange ε α} (h : x.Writes harmless)
    (hallowed : ∀ later report, harmless report → allowed later report) (past : List Step) :
    x.Ensures allowed (fun later _ => Program.Quiet harmless past later) past :=
  (Program.Writes.ensures h hallowed past).weaken fun _ _ _ hquiet _ _ => hquiet

theorem Writes.ensures_bind {post : List Step → β → Prop} {x : Exchange ε α}
    {f : α → Exchange ε β} (h : x.Writes harmless)
    (hallowed : ∀ later report, harmless report → allowed later report)
    (hf : ∀ later a, (f a).Ensures allowed post later) : (x >>= f).Ensures allowed post past :=
  Exchange.ensures_bind ((h.ensures hallowed past).weaken fun later _ a _ => hf later a)

end Exchange

/-! ## Operations of sessions -/

namespace Session.Operation

variable {allowed : List Step → Report → Prop} {left : List Step → Session → Prop}
  {past : List Step} {session : Session}

/-- What an operation writes is allowed, where it has an answer, it and the session are as stated,
and where it has none, the session is left as stated. -/
def Ensures (allowed : List Step → Report → Prop) (left : List Step → Session → Prop)
    (post : List Step → Session → α → Prop) (x : Operation α) (session : Session)
    (past : List Step) : Prop :=
  (x.run.run session).Ensures allowed (fun later result =>
    match result.1 with
    | .ok a => post later result.2 a
    | .error _ => left later result.2) past

theorem Ensures.weaken {post post' : List Step → Session → α → Prop} {x : Operation α}
    (h : x.Ensures allowed left post session past)
    (hpost : ∀ later, past <+: later → ∀ after a, post later after a → post' later after a) :
    x.Ensures allowed left post' session past := by
  apply Program.Ensures.weaken h
  intro later hlater ⟨result, after⟩ hresult
  cases result with
  | ok a => exact hpost later hlater after a hresult
  | error halt => exact hresult

theorem ensures_pure {post : List Step → Session → α → Prop} {a : α} (h : post past session a) :
    (pure a : Operation α).Ensures allowed left post session past := h

theorem ensures_throw {post : List Step → Session → α → Prop} {halt : Halt SessionError}
    (h : left past session) :
    (throw halt : Operation α).Ensures allowed left post session past := h

theorem ensures_bind {post : List Step → Session → β → Prop} {x : Operation α}
    {f : α → Operation β}
    (h : x.Ensures allowed left
      (fun later after a => (f a).Ensures allowed left post after later) session past) :
    (x >>= f).Ensures allowed left post session past := by
  apply Program.ensures_bind
  apply Program.Ensures.weaken h
  intro later _ result hresult
  obtain ⟨result, after⟩ := result
  cases result with
  | ok a => exact hresult
  | error halt => exact hresult

theorem ensures_get {post : List Step → Session → Session → Prop} (h : post past session session) :
    (get : Operation Session).Ensures allowed left post session past := h

theorem ensures_set {post : List Step → Session → PUnit → Prop} {after : Session}
    (h : post past after ⟨⟩) :
    (set after : Operation PUnit).Ensures allowed left post session past := h

theorem ensures_forget {post : List Step → Session → Unit → Prop}
    (h : post past { session with identity := none } ()) :
    forget.Ensures allowed left post session past := h

theorem ensures_family {post : List Step → Session → Family → Prop}
    (h : post past session session.remote.family) :
    family.Ensures allowed left post session past := h

theorem ensures_known {post : List Step → Session → α → Prop} {answer : Except ProtocolError α}
    (h : ∀ a, answer = .ok a → post past session a) (hleft : left past session) :
    (known answer).Ensures allowed left post session past := by
  cases answer with
  | ok a => exact h a rfl
  | error cause => exact hleft

theorem ensures_perform {post : List Step → Session → α → Prop} {x : Exchange ε α}
    {read : ε → SessionError} (h : x.Ensures allowed (fun later a => post later session a) past)
    (hleft : ∀ later, left later session) :
    (perform read x).Ensures allowed left post session past := by
  apply Program.ensures_bind
  apply Program.Ensures.weaken h
  intro later _ result hresult
  cases result with
  | ok a => exact hresult a rfl
  | error halt => exact hleft later

theorem ensures_command {post : List Step → Session → α → Prop}
    {f : Remote → Exchange RemoteError α} {read : RemoteError → SessionError}
    (h : (f session.remote).Ensures allowed (fun later a => post later session a) past)
    (hleft : ∀ later, left later session) :
    (command f read).Ensures allowed left post session past :=
  ensures_bind (ensures_get (ensures_perform h hleft))

theorem ensures_notify {post : List Step → Session → Unit → Prop} {event : Event}
    (h : post (past ++ [.told event]) session ()) :
    (notify event).Ensures allowed left post session past := h

theorem ensures_lift {post : List Step → Session → α → Prop} {p : Program α}
    (h : p.Ensures allowed (fun later a => post later session a) past) :
    (liftM p : Operation α).Ensures allowed left post session past := by
  apply Program.ensures_bind
  apply Program.ensures_bind
  exact h

end Session.Operation

end UniversalRemote
