import UniversalRemote.Proofs.Link.Ensures
/-!
# How exchanges end, with or without an answer

`Exchange.Ensures` says nothing about an exchange that ends without an answer. `Concludes` also says
why it ended, behind the steps taken, so that a failure which is met (`attempt`) can be followed
further.
-/

namespace UniversalRemote

namespace Step

def received? : Step → Option Report
  | read _ (.ok report) => some report
  | _ => none

@[simp] theorem received?_wrote (report : Report) (outcome : Except LinkError Unit) :
    (wrote report outcome).received? = none := rfl

@[simp] theorem received?_read_ok (timeout : Nat) (report : Report) :
    (read timeout (.ok report)).received? = some report := rfl

@[simp] theorem received?_read_error (timeout : Nat) (cause : LinkError) :
    (read timeout (.error cause)).received? = none := rfl

@[simp] theorem received?_told (event : Event) : (told event).received? = none := rfl

end Step

namespace Exchange

variable {allowed : List Step → Report → Prop} {past : List Step}

/-- What an exchange writes is allowed. Where it has an answer, it is as `post` states, and where it
has none, it ended for a reason as `left` states. -/
def Concludes (allowed : List Step → Report → Prop) (left : List Step → Halt ε → Prop)
    (post : List Step → α → Prop) (x : Exchange ε α) (past : List Step) : Prop :=
  x.run.Ensures allowed (fun later result =>
    match result with
    | .ok a => post later a
    | .error halt => left later halt) past

theorem Concludes.weaken {left left' : List Step → Halt ε → Prop} {post post' : List Step → α → Prop}
    {x : Exchange ε α} (h : x.Concludes allowed left post past)
    (hleft : ∀ later halt, left later halt → left' later halt)
    (hpost : ∀ later a, post later a → post' later a) : x.Concludes allowed left' post' past := by
  apply Program.Ensures.weaken h
  intro later _ result hresult
  cases result with
  | ok a => exact hpost later a hresult
  | error halt => exact hleft later halt hresult

theorem concludes_pure {left : List Step → Halt ε → Prop} {post : List Step → α → Prop} {a : α}
    (h : post past a) : (pure a : Exchange ε α).Concludes allowed left post past := h

theorem concludes_throw {left : List Step → Halt ε → Prop} {post : List Step → α → Prop}
    {halt : Halt ε} (h : left past halt) :
    (throw halt : Exchange ε α).Concludes allowed left post past := h

theorem concludes_bind {left : List Step → Halt ε → Prop} {post : List Step → β → Prop}
    {x : Exchange ε α} {f : α → Exchange ε β}
    (h : x.Concludes allowed left (fun later a => (f a).Concludes allowed left post later) past) :
    (x >>= f).Concludes allowed left post past := by
  apply Program.ensures_bind
  apply Program.Ensures.weaken h
  intro later _ result hresult
  cases result with
  | ok a => exact hresult
  | error halt => exact hresult

theorem Concludes.bind {left : List Step → Halt ε → Prop} {middle : List Step → α → Prop}
    {post : List Step → β → Prop} {x : Exchange ε α} {f : α → Exchange ε β}
    (h : x.Concludes allowed left middle past)
    (hf : ∀ later a, middle later a → (f a).Concludes allowed left post later) :
    (x >>= f).Concludes allowed left post past :=
  concludes_bind (h.weaken (fun _ _ hleft => hleft) hf)

theorem concludes_notify {left : List Step → Halt ε → Prop} {post : List Step → Unit → Prop}
    {event : Event} (h : post (past ++ [.told event]) ()) :
    (notify event : Exchange ε Unit).Concludes allowed left post past := h

/-- A failure that is met is an answer of the exchange. -/
theorem concludes_attempt {left : List Step → Halt δ → Prop}
    {post : List Step → Except ε α → Prop} {x : Exchange ε α}
    (h : x.Concludes allowed (fun later halt =>
      match halt with
      | .failed cause => post later (.error cause)
      | .overflow => left later .overflow
      | .stalled => left later .stalled) (fun later a => post later (.ok a)) past) :
    (attempt x : Exchange δ (Except ε α)).Concludes allowed left post past := by
  apply Program.ensures_bind
  apply Program.Ensures.weaken h
  intro later _ result hresult
  rcases result with (_ | _ | _) | a
  all_goals exact hresult

section Remote

variable {left : List Step → Halt RemoteError → Prop}

theorem concludes_send {post : List Step → Unit → Prop} {report : Report}
    (hallowed : allowed past report) (hpost : post (past ++ [.wrote report (.ok ())]) ())
    (hleft : ∀ cause, left (past ++ [.wrote report (.error cause)]) (.failed (.link cause))) :
    (send report).Concludes allowed left post past := by
  refine ⟨hallowed, fun outcome => ?_⟩
  cases outcome with
  | ok _ => exact hpost
  | error cause => exact hleft cause

theorem concludes_receive {post : List Step → Report → Prop} {timeout : Nat}
    (hpost : ∀ report, post (past ++ [.read timeout (.ok report)]) report)
    (hleft : ∀ cause, left (past ++ [.read timeout (.error cause)]) (.failed (.link cause))) :
    (receive timeout).Concludes allowed left post past := by
  intro outcome
  cases outcome with
  | ok report => exact hpost report
  | error cause => exact hleft cause

theorem concludes_check {post : List Step → α → Prop} {answer : Except ProtocolError α}
    (hpost : ∀ a, answer = .ok a → post past a)
    (hleft : ∀ cause, answer = .error cause → left past (.failed (.protocol cause))) :
    (check answer).Concludes allowed left post past := by
  cases answer with
  | ok a => exact hpost a rfl
  | error cause => exact hleft cause rfl

end Remote

end Exchange

end UniversalRemote
