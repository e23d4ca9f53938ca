import UniversalRemote.Proofs.Link.Ensures
/-!
# Two programs in step

Two programs are in step if they write and read the same, whatever comes of it, until both end or
the second one ends early. What an observer is told may differ. `Lockstep.run` carries this over to
the two runs on one device: the traffic of the second is the front of the traffic of the first.
-/

namespace UniversalRemote

def transfers (trace : List Step) : List Step :=
  trace.filter Step.isTransfer

namespace Program

/-- Behind the writes and reads so far, two programs are in step: they end as `both` says, or the
second one ends where the first one goes on, as `early` says. -/
inductive Lockstep (both : α → β → Prop) (early : List Step → Program α → β → Prop) :
    List Step → Program α → Program β → Prop where
  | done (h : both a b) : Lockstep both early past (.done a) (.done b)
  | write {past report next next'} (h : ∀ outcome,
      Lockstep both early (past ++ [.wrote report outcome]) (next outcome) (next' outcome)) :
      Lockstep both early past (.write report next) (.write report next')
  | read {past timeout next next'} (h : ∀ outcome,
      Lockstep both early (past ++ [.read timeout outcome]) (next outcome) (next' outcome)) :
      Lockstep both early past (.read timeout next) (.read timeout next')
  | told (h : Lockstep both early past p q) :
      Lockstep both early past (.notify event p) (.notify event' q)
  | stop (h : early past p b) : Lockstep both early past p (.done b)

variable {both : α → β → Prop} {early : List Step → Program α → β → Prop} {past : List Step}
  {p : Program α} {q : Program β}

/-- The runs of two programs in step: they have the same traffic and end together, or the first one
goes on where the second one has ended. -/
theorem Lockstep.run (h : Lockstep both early past p q) (device : Device σ) (state : σ) :
    (both (p.run device state).result (q.run device state).result ∧
      transfers (p.run device state).trace = transfers (q.run device state).trace) ∨
    ∃ rest, early (past ++ transfers (q.run device state).trace) rest (q.run device state).result ∧
      (p.run device state).result = (rest.run device (q.run device state).state).result ∧
      transfers (p.run device state).trace = transfers (q.run device state).trace ++
        transfers (rest.run device (q.run device state).state).trace := by
  induction h generalizing state with
  | done h => exact .inl ⟨h, rfl⟩
  | @write past report next next' h ih =>
    have hcons : ∀ {a b}, a = b → Step.wrote report (device.write report state).1 :: a =
        .wrote report (device.write report state).1 :: b := congrArg _
    rw [run_write, run_write]
    refine (ih _ (device.write report state).2).imp
      (fun ⟨hboth, htraffic⟩ => ⟨hboth, hcons htraffic⟩) ?_
    rintro ⟨rest, hearly, hresult, htraffic⟩
    rw [List.append_assoc] at hearly
    exact ⟨rest, hearly, hresult, hcons htraffic⟩
  | @read past timeout next next' h ih =>
    have hcons : ∀ {a b}, a = b → Step.read timeout (device.read timeout state).1 :: a =
        .read timeout (device.read timeout state).1 :: b := congrArg _
    rw [run_read, run_read]
    refine (ih _ (device.read timeout state).2).imp
      (fun ⟨hboth, htraffic⟩ => ⟨hboth, hcons htraffic⟩) ?_
    rintro ⟨rest, hearly, hresult, htraffic⟩
    rw [List.append_assoc] at hearly
    exact ⟨rest, hearly, hresult, hcons htraffic⟩
  | told h ih =>
    rw [run_notify, run_notify]
    exact ih state
  | stop h => exact .inr ⟨_, (List.append_nil _).symm ▸ h, rfl, rfl⟩

end Program

namespace Exchange

/-- Two exchanges end together: with answers that `post` relates, or for the same reason without
one. -/
def Agree (post : α → β → Prop) : Except (Halt ε) α → Except (Halt ε) β → Prop
  | .ok a, .ok b => post a b
  | .error halt, .error halt' => halt = halt'
  | _, _ => False

def Lockstep (post : α → β → Prop)
    (early : List Step → Program (Except (Halt ε) α) → Except (Halt ε) β → Prop) (past : List Step)
    (x : Exchange ε α) (y : Exchange ε β) : Prop :=
  Program.Lockstep (Agree post) early past x.run y.run

variable {post : α → β → Prop}
  {early : List Step → Program (Except (Halt ε) α) → Except (Halt ε) β → Prop} {past : List Step}

theorem lockstep_throw (halt : Halt ε) :
    Lockstep post early past (throw halt : Exchange ε α) (throw halt : Exchange ε β) :=
  .done rfl

theorem lockstep_notify {event event' : Event} {f : Unit → Exchange ε α} {g : Unit → Exchange ε β}
    (h : Lockstep post early past (f ()) (g ())) :
    Lockstep post early past (notify event >>= f) (notify event' >>= g) :=
  .told h

theorem lockstep_ofChecked {value : Option γ} {f : γ → Exchange ε α} {g : γ → Exchange ε β}
    (h : ∀ a, value = some a → Lockstep post early past (f a) (g a)) :
    Lockstep post early past (ofChecked value >>= f) (ofChecked value >>= g) := by
  cases value with
  | some a => exact h a rfl
  | none => exact lockstep_throw _

section Remote

variable {post : α → β → Prop} {past : List Step}
  {early : List Step → Program (Except (Halt RemoteError) α) → Except (Halt RemoteError) β → Prop}

theorem lockstep_check {answer : Except ProtocolError γ} {f : γ → Exchange RemoteError α}
    {g : γ → Exchange RemoteError β}
    (h : ∀ a, answer = .ok a → Lockstep post early past (f a) (g a)) :
    Lockstep post early past (check answer >>= f) (check answer >>= g) := by
  cases answer with
  | ok a => exact h a rfl
  | error cause => exact lockstep_throw _

theorem lockstep_send {report : Report} {f : Unit → Exchange RemoteError α}
    {g : Unit → Exchange RemoteError β}
    (h : Lockstep post early (past ++ [.wrote report (.ok ())]) (f ()) (g ())) :
    Lockstep post early past (send report >>= f) (send report >>= g) := by
  refine .write fun outcome => ?_
  cases outcome with
  | ok _ => exact h
  | error cause => exact .done rfl

theorem lockstep_receive {timeout : Nat} {f : Report → Exchange RemoteError α}
    {g : Report → Exchange RemoteError β}
    (h : ∀ report, Lockstep post early (past ++ [.read timeout (.ok report)]) (f report) (g report)) :
    Lockstep post early past (receive timeout >>= f) (receive timeout >>= g) := by
  refine .read fun outcome => ?_
  cases outcome with
  | ok report => exact h report
  | error cause => exact .done rfl

end Remote

end Exchange

end UniversalRemote
