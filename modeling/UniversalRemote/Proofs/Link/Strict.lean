import UniversalRemote.Link.Program
/-!
# Exchanges that end at the first failure

A strict exchange goes on only behind transfers that succeeded: where a write or a read fails, it
ends at once, with that failure and nothing else. Every other end is its own, and it writes only what
it may. Strict exchanges are put together from strict ones.
-/

namespace UniversalRemote

/-- An end that is not the failure of a transfer. Words are left only where that is granted. -/
def Halt.Own (wide : Prop) : Halt RemoteError → Prop
  | failed (.link _) => False
  | overflow => wide
  | _ => True

namespace Program

variable {writes : Report → Prop} {fails : LinkError → α → Prop} {ends : α → Prop} {p : Program α}

/-- A program that ends at once where a transfer fails. -/
def Strict (writes : Report → Prop) (fails : LinkError → α → Prop) (ends : α → Prop) :
    Program α → Prop
  | .done a => ends a
  | .write report next => writes report ∧ (next (.ok ())).Strict writes fails ends ∧
    ∀ cause, ∃ a, next (.error cause) = .done a ∧ fails cause a
  | .read _ next => (∀ report, (next (.ok report)).Strict writes fails ends) ∧
    ∀ cause, ∃ a, next (.error cause) = .done a ∧ fails cause a
  | .notify _ next => next.Strict writes fails ends

theorem Strict.bind {fails' : LinkError → β → Prop} {ends' : β → Prop} {f : α → Program β}
    (h : p.Strict writes fails ends)
    (hfails : ∀ cause a, fails cause a → ∃ b, f a = .done b ∧ fails' cause b)
    (hends : ∀ a, ends a → (f a).Strict writes fails' ends') :
    (p.bind f).Strict writes fails' ends' := by
  have hfailed : ∀ {q : Program α} {cause : LinkError}, (∃ a, q = .done a ∧ fails cause a) →
      ∃ b, q.bind f = .done b ∧ fails' cause b := by
    rintro _ cause ⟨a, rfl, ha⟩
    exact hfails cause a ha
  induction p with
  | done a => exact hends a h
  | write report next ih => exact ⟨h.1, ih _ h.2.1, fun cause => hfailed (h.2.2 cause)⟩
  | read timeout next ih => exact ⟨fun report => ih _ (h.1 report), fun cause => hfailed (h.2 cause)⟩
  | notify event next ih => exact ih h

end Program

namespace Exchange

variable {writes : Report → Prop} {own : Halt RemoteError → Prop}

def Strict (writes : Report → Prop) (own : Halt RemoteError → Prop) (x : Exchange RemoteError α) :
    Prop :=
  x.run.Strict writes (fun cause result => result = .error (.failed (.link cause)))
    fun result => ∀ halt, result = .error halt → own halt

theorem strict_pure (a : α) : (pure a : Exchange RemoteError α).Strict writes own :=
  fun _ h => nomatch h

theorem strict_throw {halt : Halt RemoteError} (h : own halt) :
    (throw halt : Exchange RemoteError α).Strict writes own := by
  intro other hother
  cases hother
  exact h

theorem Strict.bind {x : Exchange RemoteError α} {f : α → Exchange RemoteError β}
    (h : x.Strict writes own) (hf : ∀ a, (f a).Strict writes own) :
    (x >>= f).Strict writes own := by
  refine Program.Strict.bind h (fun cause result hresult => ?_) fun result hresult => ?_
  · rw [hresult]
    exact ⟨_, rfl, rfl⟩
  · cases result with
    | ok a => exact hf a
    | error halt => exact strict_throw (hresult halt rfl)

/-- What goes on only where a condition does not hold. -/
theorem strict_unless {condition : Prop} [Decidable condition] {x : Exchange RemoteError PUnit}
    {f : PUnit → Exchange RemoteError α} (hx : x.Strict writes own)
    (hf : (f ⟨⟩).Strict writes own) : (if condition then x >>= f else f ⟨⟩).Strict writes own := by
  split
  · exact hx.bind fun _ => hf
  · exact hf

theorem strict_send {report : Report} (h : writes report) : (send report).Strict writes own :=
  ⟨h, nofun, fun _ => ⟨_, rfl, rfl⟩⟩

theorem strict_receive (timeout : Nat) : (receive timeout).Strict writes own :=
  ⟨fun _ => nofun, fun _ => ⟨_, rfl, rfl⟩⟩

theorem strict_notify (event : Event) :
    (notify event : Exchange RemoteError Unit).Strict writes own :=
  fun _ h => nomatch h

theorem strict_progress (stage : Stage) (current total : Nat) :
    (progress stage current total : Exchange RemoteError Unit).Strict writes own :=
  strict_notify _

section Own

variable {wide : Prop}

theorem strict_refuse (cause : ProtocolError) :
    (refuse cause : Exchange RemoteError α).Strict writes (Halt.Own wide) :=
  strict_throw trivial

theorem strict_check_bind {answer : Except ProtocolError α} {f : α → Exchange RemoteError β}
    (hf : ∀ a, answer = .ok a → (f a).Strict writes (Halt.Own wide)) :
    (check answer >>= f).Strict writes (Halt.Own wide) := by
  cases answer with
  | ok a => exact hf a rfl
  | error cause => exact strict_refuse cause

theorem strict_check (answer : Except ProtocolError α) :
    (check answer).Strict writes (Halt.Own wide) := by
  cases answer with
  | ok a => exact strict_pure a
  | error cause => exact strict_refuse cause

theorem strict_ofChecked {value : Option α} (h : ¬ wide → value ≠ none) :
    (ofChecked value : Exchange RemoteError α).Strict writes (Halt.Own wide) := by
  cases value with
  | some a => exact strict_pure a
  | none => exact strict_throw (Classical.not_not.1 fun hwide => h hwide rfl)

theorem strict_checkHalt {answer : Except (Halt ProtocolError) α}
    (h : ¬ wide → answer ≠ .error .overflow) :
    (checkHalt answer).Strict writes (Halt.Own wide) := by
  cases answer with
  | ok a => exact strict_pure a
  | error halt =>
    refine strict_throw ?_
    cases halt with
    | failed cause => exact trivial
    | overflow => exact Classical.not_not.1 fun hwide => h hwide rfl
    | stalled => exact trivial

abbrev Direct (wide : Prop) (x : Exchange RemoteError α) : Prop :=
  x.Strict (fun _ => True) (Halt.Own wide)

theorem direct_send (report : Report) : (send report).Direct wide :=
  strict_send trivial

end Own

end Exchange

end UniversalRemote
