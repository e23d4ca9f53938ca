import UniversalRemote.Link.Device
import UniversalRemote.Session.Basic
/-!
# How runs end

Against one device, a run of a program ends with a result and leaves the device in some state. The
equations below read that ending off the parts of programs, exchanges and operations of sessions,
so that an argument about a device never looks at traces.
-/

namespace UniversalRemote

namespace Program

/-- The result of a run, and the state that it leaves the device in. -/
def ending (device : Device σ) (p : Program α) (state : σ) : α × σ :=
  ((p.run device state).result, (p.run device state).state)

variable (device : Device σ) (state : σ)

@[simp] theorem ending_pure (a : α) : (pure a : Program α).ending device state = (a, state) := rfl

theorem ending_write (report : Report) (next : Except LinkError Unit → Program α) :
    (write report next).ending device state =
      (next (device.write report state).1).ending device (device.write report state).2 := by
  rw [ending, run_write]
  rfl

theorem ending_read (timeout : Nat) (next : Except LinkError Report → Program α) :
    (read timeout next).ending device state =
      (next (device.read timeout state).1).ending device (device.read timeout state).2 := by
  rw [ending, run_read]
  rfl

theorem ending_notify (event : Event) (next : Program α) :
    (notify event next).ending device state = next.ending device state := by
  rw [ending, run_notify]
  rfl

theorem ending_bind (p : Program α) (f : α → Program β) :
    (p.bind f).ending device state =
      (f (p.ending device state).1).ending device (p.ending device state).2 := by
  simp only [ending, run_bind]

theorem ending_monad_bind (p : Program α) (f : α → Program β) :
    (p >>= f).ending device state =
      (f (p.ending device state).1).ending device (p.ending device state).2 :=
  ending_bind device state p f

end Program

namespace Exchange

def ending (device : Device σ) (x : Exchange ε α) (state : σ) : Except (Halt ε) α × σ :=
  x.run.ending device state

variable {device : Device σ} {state t : σ}

@[simp] theorem ending_pure (a : α) :
    (pure a : Exchange ε α).ending device state = (.ok a, state) := rfl

theorem ending_bind_ok {x : Exchange ε α} {a : α} (h : x.ending device state = (.ok a, t))
    (f : α → Exchange ε β) : (x >>= f).ending device state = (f a).ending device t := by
  change (x.run.bind _).ending device state = _
  rw [Program.ending_bind]
  change x.run.ending device state = _ at h
  rw [h]
  rfl

theorem ending_bind_error {x : Exchange ε α} {halt : Halt ε}
    (h : x.ending device state = (.error halt, t)) (f : α → Exchange ε β) :
    (x >>= f).ending device state = (.error halt, t) := by
  change (x.run.bind _).ending device state = _
  rw [Program.ending_bind]
  change x.run.ending device state = _ at h
  rw [h]
  rfl

theorem ending_attempt_ok {x : Exchange ε α} {a : α} (h : x.ending device state = (.ok a, t)) :
    (attempt x : Exchange δ (Except ε α)).ending device state = (.ok (.ok a), t) := by
  change (x.run.bind _).ending device state = _
  rw [Program.ending_bind]
  change x.run.ending device state = _ at h
  rw [h]
  rfl

theorem ending_attempt_failed {x : Exchange ε α} {cause : ε}
    (h : x.ending device state = (.error (.failed cause), t)) :
    (attempt x : Exchange δ (Except ε α)).ending device state = (.ok (.error cause), t) := by
  change (x.run.bind _).ending device state = _
  rw [Program.ending_bind]
  change x.run.ending device state = _ at h
  rw [h]
  rfl

theorem ending_ofChecked_some {value : Option α} {a : α} (h : value = some a) :
    (ofChecked value : Exchange ε α).ending device state = (.ok a, state) := by
  rw [h]
  rfl

theorem ending_send (report : Report) :
    (send report).ending device state =
      (settle (device.write report state).1, (device.write report state).2) :=
  Program.ending_write device state report _

theorem ending_receive (timeout : Nat) :
    (receive timeout).ending device state =
      (settle (device.read timeout state).1, (device.read timeout state).2) :=
  Program.ending_read device state timeout _

@[simp] theorem ending_notify (event : Event) :
    (notify event : Exchange ε Unit).ending device state = (.ok (), state) :=
  Program.ending_notify device state event _

@[simp] theorem ending_progress (stage : Stage) (current total : Nat) :
    (progress stage current total : Exchange ε Unit).ending device state = (.ok (), state) :=
  ending_notify _

theorem run_bind_ok {x : Exchange ε α} {a : α} (h : (x.run.run device state).result = .ok a)
    (f : α → Exchange ε β) :
    (x >>= f).run.run device state =
      let rest := (f a).run.run device (x.run.run device state).state
      { rest with trace := (x.run.run device state).trace ++ rest.trace } := by
  change (x.run.bind _).run device state = _
  rw [Program.run_bind]
  dsimp only
  rw [h]
  rfl

theorem run_bind_error {x : Exchange ε α} {halt : Halt ε}
    (h : (x.run.run device state).result = .error halt) (f : α → Exchange ε β) :
    ((x >>= f).run.run device state).result = .error halt ∧
      ((x >>= f).run.run device state).trace = (x.run.run device state).trace := by
  change ((x.run.bind _).run device state).result = _ ∧ ((x.run.bind _).run device state).trace = _
  rw [Program.run_bind]
  dsimp only
  rw [h]
  exact ⟨rfl, List.append_nil _⟩

theorem run_bind_pure (device : Device σ) (state : σ) (x : Exchange ε α) (f : α → β) :
    ((x >>= fun a => pure (f a)).run.run device state).result =
        (x.run.run device state).result.map f ∧
      ((x >>= fun a => pure (f a)).run.run device state).trace = (x.run.run device state).trace := by
  cases hresult : (x.run.run device state).result with
  | error halt => exact run_bind_error hresult _
  | ok a =>
    rw [run_bind_ok hresult]
    exact ⟨rfl, List.append_nil _⟩

end Exchange

namespace Session.Operation

/-- The answer of an operation, or why it has none, the session that goes on behind it, and the
state that it leaves the device in. -/
def ending (device : Device σ) (x : Operation α) (session : Session) (state : σ) :
    (Except (Halt SessionError) α × Session) × σ :=
  (x.run.run session).ending device state

variable {device : Device σ} {session after : Session} {state t : σ}

@[simp] theorem ending_pure (a : α) :
    (pure a : Operation α).ending device session state = ((.ok a, session), state) := rfl

theorem ending_get :
    (get : Operation Session).ending device session state = ((.ok session, session), state) := rfl

theorem ending_forget :
    forget.ending device session state = ((.ok (), { session with identity := none }), state) := rfl

theorem ending_family :
    family.ending device session state = ((.ok session.remote.family, session), state) := rfl

/-- A program that is run in a session leaves the session as it is. -/
theorem ending_lift (p : Program α) :
    (liftM p : Operation α).ending device session state =
      ((.ok (p.ending device state).1, session), (p.ending device state).2) := by
  change ((p.bind fun a => Program.done (a, session)).bind _).ending device state = _
  rw [Program.ending_bind, Program.ending_bind]
  rfl

theorem ending_bind_ok {x : Operation α} {a : α}
    (h : x.ending device session state = ((.ok a, after), t)) (f : α → Operation β) :
    (x >>= f).ending device session state = (f a).ending device after t := by
  change ((x.run.run session).bind _).ending device state = _
  rw [Program.ending_bind]
  change (x.run.run session).ending device state = _ at h
  rw [h]
  rfl

theorem ending_perform_ok {x : Exchange ε α} {a : α} (h : x.ending device state = (.ok a, t))
    (read : ε → SessionError) :
    (perform read x).ending device session state = ((.ok a, session), t) := by
  change (x.run.bind _).ending device state = _
  rw [Program.ending_bind]
  change x.run.ending device state = _ at h
  rw [h]
  rfl

theorem ending_known_ok {answer : Except ProtocolError α} {a : α} (h : answer = .ok a) :
    (known answer).ending device session state = ((.ok a, session), state) := by
  rw [h]
  rfl

theorem ending_command_ok {f : Remote → Exchange RemoteError α} {a : α}
    (h : (f session.remote).ending device state = (.ok a, t)) (read : RemoteError → SessionError) :
    (command f read).ending device session state = ((.ok a, session), t) := by
  rw [command, ending_bind_ok ending_get, ending_perform_ok h]

@[simp] theorem ending_notify (event : Event) :
    (notify event).ending device session state = ((.ok (), session), state) :=
  ending_perform_ok (Exchange.ending_notify event) _

@[simp] theorem ending_begin (stage : Stage) :
    (begin stage).ending device session state = ((.ok (), session), state) :=
  ending_notify _

end Session.Operation

end UniversalRemote
