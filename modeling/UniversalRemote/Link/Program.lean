import UniversalRemote.Error
import UniversalRemote.Event
/-!
# Programs

A program is what a host does on a link: it writes reports, reads reports and tells its observer
about it, and what it does next depends on how each write and read turns out. A program is a tree
whose branches are those outcomes, so a statement about all of its runs is a statement about the
tree. `bind_assoc` and its neighbours say that programs compose.
-/

namespace UniversalRemote

/-- The bytes of one transfer over a link. -/
abbrev Report := List UInt8

inductive Program (α : Type) where
  /-- Ends. -/
  | done (result : α)
  /-- Writes a report. -/
  | write (report : Report) (next : Except LinkError Unit → Program α)
  /-- Waits so many milliseconds for a report. -/
  | read (timeout : Nat) (next : Except LinkError Report → Program α)
  /-- Tells the observer. -/
  | notify (event : Event) (next : Program α)

namespace Program

def bind : Program α → (α → Program β) → Program β
  | done a, f => f a
  | write report next, f => .write report fun outcome => (next outcome).bind f
  | read timeout next, f => .read timeout fun outcome => (next outcome).bind f
  | notify event next, f => .notify event (next.bind f)

instance : Monad Program where
  pure := done
  bind := bind

@[simp] theorem bind_done (p : Program α) : p.bind done = p := by
  induction p with
  | done => rfl
  | write report next ih => simp [bind, ih]
  | read timeout next ih => simp [bind, ih]
  | notify event next ih => simp [bind, ih]

theorem bind_assoc (p : Program α) (f : α → Program β) (g : β → Program γ) :
    (p.bind f).bind g = p.bind fun a => (f a).bind g := by
  induction p with
  | done => rfl
  | write report next ih => simp [bind, ih]
  | read timeout next ih => simp [bind, ih]
  | notify event next ih => simp [bind, ih]

instance : LawfulMonad Program :=
  LawfulMonad.mk' Program bind_done (fun _ _ => rfl) bind_assoc

end Program

/-- A program that may halt before it has an answer. -/
abbrev Exchange (ε : Type) := ExceptT (Halt ε) Program

namespace Exchange

def fail (cause : ε) : Exchange ε α :=
  throw (.failed cause)

/-- Ends because traffic, or an argument, is not what the protocol admits. -/
def refuse (cause : ProtocolError) : Exchange RemoteError α :=
  fail (.protocol cause)

/-- Ends because a machine word was left. -/
def overflow : Exchange ε α :=
  throw .overflow

/-- Ends because the patience of the host is used up. -/
def stalled : Exchange ε α :=
  throw .stalled

/-- The answer of a computation that does no traffic. -/
def check (answer : Except ProtocolError α) : Exchange RemoteError α :=
  match answer with
  | .ok a => pure a
  | .error cause => refuse cause

/-- The answer of a computation that does no traffic but may overflow. -/
def checkHalt (answer : Except (Halt ProtocolError) α) : Exchange RemoteError α :=
  match answer with
  | .ok a => pure a
  | .error halt => throw (halt.map .protocol)

/-- The value of a sum or product, unless it left its machine word. -/
def ofChecked (value : Option α) : Exchange ε α :=
  match value with
  | some a => pure a
  | none => overflow

def notify (event : Event) : Exchange ε Unit :=
  ExceptT.mk (.notify event (.done (.ok ())))

def progress (stage : Stage) (current total : Nat) : Exchange ε Unit :=
  notify (.progress stage current total)

/-- What a finished transfer means for the exchange. -/
def settle (outcome : Except LinkError α) : Except (Halt RemoteError) α :=
  outcome.mapError fun cause => .failed (.link cause)

def send (report : Report) : Exchange RemoteError Unit :=
  ExceptT.mk (.write report fun outcome => .done (settle outcome))

def receive (timeout : Nat) : Exchange RemoteError Report :=
  ExceptT.mk (.read timeout fun outcome => .done (settle outcome))

/-- The outcome of an exchange, with a failure as a value; other ends remain ends. -/
def attempt (x : Exchange ε α) : Exchange δ (Except ε α) :=
  ExceptT.mk (x.run.bind fun
    | .ok a => .done (.ok (.ok a))
    | .error (.failed cause) => .done (.ok (.error cause))
    | .error .overflow => .done (.error .overflow)
    | .error .stalled => .done (.error .stalled))

/-- The first of two answers. Where either exchange failed, the earlier failure counts. -/
def first : Except ε α → Except ε β → Exchange ε α
  | .error cause, _ => fail cause
  | .ok _, .error cause => fail cause
  | .ok a, .ok _ => pure a

end Exchange

end UniversalRemote
