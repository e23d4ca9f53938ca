import UniversalRemote.Link.Program
/-!
# Devices and runs

A device is what stands at the other end of a link. Running a program against it gives the
program's result, the device's final state and the trace of what went over the link.
-/

namespace UniversalRemote

/-- The other end of a link, with a state of its own. -/
structure Device (σ : Type) where
  write : Report → σ → Except LinkError Unit × σ
  read : Nat → σ → Except LinkError Report × σ

inductive Step where
  | wrote (report : Report) (outcome : Except LinkError Unit)
  | read (timeout : Nat) (outcome : Except LinkError Report)
  | told (event : Event)
  deriving Repr

namespace Step

def event? : Step → Option Event
  | told event => some event
  | _ => none

/-- The report of a write, whether or not it succeeded. -/
def written? : Step → Option Report
  | wrote report _ => some report
  | _ => none

def isTransfer : Step → Bool
  | told _ => false
  | _ => true

end Step

structure Run (σ α : Type) where
  result : α
  state : σ
  trace : List Step

namespace Program

/-- Runs a program on a device behind the steps already taken, which are given newest first. -/
def runFrom (device : Device σ) : Program α → σ → List Step → Run σ α
  | .done result, state, past => ⟨result, state, past.reverse⟩
  | .write report next, state, past =>
    let (outcome, state) := device.write report state
    runFrom device (next outcome) state (.wrote report outcome :: past)
  | .read timeout next, state, past =>
    let (outcome, state) := device.read timeout state
    runFrom device (next outcome) state (.read timeout outcome :: past)
  | .notify event next, state, past => runFrom device next state (.told event :: past)

def run (p : Program α) (device : Device σ) (state : σ) : Run σ α :=
  runFrom device p state []

theorem runFrom_eq (device : Device σ) (p : Program α) (state : σ) (past : List Step) :
    runFrom device p state past =
      { p.run device state with trace := past.reverse ++ (p.run device state).trace } := by
  suffices h : ∀ a b, runFrom device p state (a ++ b) =
      { runFrom device p state a with
        trace := b.reverse ++ (runFrom device p state a).trace } by
    simpa [run] using h [] past
  induction p generalizing state with
  | done result => simp [runFrom]
  | write report next ih =>
    intro a b
    simpa [runFrom] using ih _ _ (Step.wrote report _ :: a) b
  | read timeout next ih =>
    intro a b
    simpa [runFrom] using ih _ _ (Step.read timeout _ :: a) b
  | notify event next ih =>
    intro a b
    simpa [runFrom] using ih _ (Step.told event :: a) b

theorem run_write (device : Device σ) (report : Report) (next : Except LinkError Unit → Program α)
    (state : σ) :
    (write report next).run device state =
      let (outcome, after) := device.write report state
      let rest := (next outcome).run device after
      { rest with trace := .wrote report outcome :: rest.trace } := by
  simp only [run, runFrom]
  rw [runFrom_eq]
  rfl

theorem run_read (device : Device σ) (timeout : Nat) (next : Except LinkError Report → Program α)
    (state : σ) :
    (read timeout next).run device state =
      let (outcome, after) := device.read timeout state
      let rest := (next outcome).run device after
      { rest with trace := .read timeout outcome :: rest.trace } := by
  simp only [run, runFrom]
  rw [runFrom_eq]
  rfl

theorem run_notify (device : Device σ) (event : Event) (next : Program α) (state : σ) :
    (notify event next).run device state =
      let rest := next.run device state
      { rest with trace := .told event :: rest.trace } := by
  simp only [run, runFrom]
  rw [runFrom_eq]
  rfl

/-- Running one program after another runs the second where the first ended. -/
theorem run_bind (p : Program α) (f : α → Program β) (device : Device σ) (state : σ) :
    (p.bind f).run device state =
      let first := p.run device state
      let second := (f first.result).run device first.state
      { second with trace := first.trace ++ second.trace } := by
  induction p generalizing state with
  | done result => simp [bind, run, runFrom]
  | write report next ih =>
    simp only [bind, run, runFrom] at ih ⊢
    rw [runFrom_eq, runFrom_eq (p := next _)]
    simp [run, ih]
  | read timeout next ih =>
    simp only [bind, run, runFrom] at ih ⊢
    rw [runFrom_eq, runFrom_eq (p := next _)]
    simp [run, ih]
  | notify event next ih =>
    simp only [bind, run, runFrom] at ih ⊢
    rw [runFrom_eq, runFrom_eq (p := next)]
    simp [run, ih]

end Program

end UniversalRemote
