import UniversalRemote.Proofs.Link.Outcome
import UniversalRemote.Proofs.Link.Strict
/-!
# The first failure of a run

The failures of a run are those of its writes and reads, in order; a read that times out behind a
message of farewell is none. An honest program has an answer only where nothing failed. Otherwise it
ends with the first failure, whatever becomes of the clean-up behind it: `Honest.run`. Strict
exchanges are honest, and so are exchanges that clean up behind what may fail.
-/

namespace UniversalRemote

def Halt.link? : Halt RemoteError → Option LinkError
  | failed (.link cause) => some cause
  | _ => none

theorem Halt.Own.link? {wide : Prop} {halt : Halt RemoteError} (h : halt.Own wide) :
    halt.link? = none := by
  match halt, h with
  | .failed (.protocol _), _ => rfl
  | .failed (.mismatch _), _ => rfl
  | .failed (.notOffered _ _), _ => rfl
  | .overflow, _ => rfl
  | .stalled, _ => rfl

/-- The failures among some steps. Once a message of farewell has been written, a read that times out
is none. -/
def failuresFrom (farewell : Report → Bool) : Bool → List Step → List LinkError
  | _, [] => []
  | gone, .wrote report (.ok ()) :: rest => failuresFrom farewell (gone || farewell report) rest
  | gone, .wrote report (.error cause) :: rest =>
    cause :: failuresFrom farewell (gone || farewell report) rest
  | gone, .read _ (.ok _) :: rest => failuresFrom farewell gone rest
  | gone, .read _ (.error cause) :: rest =>
    if gone && cause.timedOut then failuresFrom farewell gone rest
    else cause :: failuresFrom farewell gone rest
  | gone, .told _ :: rest => failuresFrom farewell gone rest

def failures (farewell : Report → Bool) (trace : List Step) : List LinkError :=
  failuresFrom farewell false trace

/-- A read that times out behind a message of farewell. -/
structure Excused (farewell : Report → Bool) (before : List Step) (step : Step) : Prop where
  timedOut : ∃ timeout cause, step = .read timeout (.error cause) ∧ cause.timedOut = true
  gone : ∃ report ∈ before.filterMap Step.written?, farewell report = true

/-- A message that ends what the remote has begun: the end of a capture, or of the use of a token. -/
def IsCleanup (report : Report) : Prop :=
  report = [0x80] ∨ (∃ token, report = [0xFF, 0x06, 0x02, 0x02, 0x01, token, 0x01, 0x06]) ∨
    ∃ number token, report = [0xFF, 0x07, number, 0x01, 0x01, token]

/-- Steps that begin with a clean-up message, and write nothing else. -/
structure Cleanup (steps : List Step) : Prop where
  written : ∀ report ∈ steps.filterMap Step.written?, IsCleanup report
  begun : ∀ step, steps.head? = some step → ∃ report outcome, step = .wrote report outcome

namespace Program

/-- Only clean-up messages are left to write, and whatever becomes of them, the end is known. -/
def Closing (halt : Halt RemoteError) : Program (Except (Halt RemoteError) α) → Prop
  | .done result => result = .error halt
  | .write report next => IsCleanup report ∧ ∀ outcome, (next outcome).Closing halt
  | .read _ next => ∀ outcome, (next outcome).Closing halt
  | .notify _ next => next.Closing halt

/-- The end is known: there is nothing left to do, or a clean-up begins. -/
def Ending (halt : Halt RemoteError) : Program (Except (Halt RemoteError) α) → Prop
  | .done result => result = .error halt
  | .write report next => (write report next).Closing halt
  | _ => False

/-- A program that goes on only behind transfers that succeeded. Where one fails, or for a reason of
its own, its end is settled, and all it still does is to clean up. -/
def Honest (farewell : Report → Bool) (wide : Prop) :
    Bool → Program (Except (Halt RemoteError) α) → Prop
  | _, .done result => ∀ halt, result = .error halt → halt.Own wide
  | gone, .write report next =>
    (∃ halt : Halt RemoteError, halt.Own wide ∧ (write report next).Ending halt) ∨
      ((next (.ok ())).Honest farewell wide (gone || farewell report) ∧
        ∀ cause, (next (.error cause)).Ending (.failed (.link cause)))
  | gone, .read _ next => (∀ report, (next (.ok report)).Honest farewell wide gone) ∧
    ∀ cause, if gone && cause.timedOut then (next (.error cause)).Honest farewell wide gone
      else (next (.error cause)).Ending (.failed (.link cause))
  | gone, .notify _ next => next.Honest farewell wide gone

/-- Every run that begins with some steps ends in this way. -/
def Settled (p : Program (Except (Halt RemoteError) α)) (main : List Step)
    (halt : Halt RemoteError) : Prop :=
  ∀ {σ : Type} (device : Device σ) (state : σ), main <+: (p.run device state).trace →
    (p.run device state).result = .error halt

/-- How a run comes to its end: behind its first failure, if any, it only cleans up, and the end
was settled before that. -/
def FailsFirst (farewell : Report → Bool) (gone : Bool) (p : Program (Except (Halt RemoteError) α))
    (trace : List Step) (halt : Halt RemoteError) : Prop :=
  ∃ main cleanup, trace = main ++ cleanup ∧ failuresFrom farewell gone main = halt.link?.toList ∧
    Cleanup cleanup ∧ p.Settled main halt

/-- What a run owes for its result: with an answer, nothing failed, and otherwise it ended with the
first failure. A machine word is left only where that is granted. -/
def Accounts (farewell : Report → Bool) (wide : Prop) (gone : Bool)
    (p : Program (Except (Halt RemoteError) α)) (trace : List Step) :
    Except (Halt RemoteError) α → Prop
  | .ok _ => failuresFrom farewell gone trace = []
  | .error halt => p.FailsFirst farewell gone trace halt ∧ (halt = .overflow → wide)

section Runs

variable {farewell : Report → Bool} {wide : Prop} {gone : Bool} {halt : Halt RemoteError}
  {p : Program (Except (Halt RemoteError) α)}

theorem Closing.run (h : p.Closing halt) (device : Device σ) (state : σ) :
    (p.run device state).result = .error halt ∧
      ∀ report ∈ (p.run device state).trace.filterMap Step.written?, IsCleanup report := by
  induction p generalizing state with
  | done result => exact ⟨h, nofun⟩
  | write report next ih =>
    rw [run_write]
    obtain ⟨hresult, hwritten⟩ := ih _ (h.2 (device.write report state).1) _
    refine ⟨hresult, fun other hother => ?_⟩
    rcases List.mem_cons.1 hother with rfl | hother
    · exact h.1
    · exact hwritten other hother
  | read timeout next ih =>
    rw [run_read]
    exact ih _ (h (device.read timeout state).1) _
  | notify event next ih =>
    rw [run_notify]
    exact ih h state

theorem Ending.closing (h : p.Ending halt) : p.Closing halt := by
  cases p with
  | done result => exact h
  | write report next => exact h
  | read timeout next => exact h.elim
  | notify event next => exact h.elim

theorem Ending.run (h : p.Ending halt) (device : Device σ) (state : σ) :
    (p.run device state).result = .error halt ∧ Cleanup (p.run device state).trace := by
  obtain ⟨hresult, hwritten⟩ := h.closing.run device state
  refine ⟨hresult, hwritten, fun step hstep => ?_⟩
  cases p with
  | done result => exact nomatch hstep
  | write report next =>
    rw [run_write] at hstep
    exact ⟨report, _, (Option.some.inj hstep).symm⟩
  | read timeout next => exact h.elim
  | notify event next => exact h.elim

theorem settled_of_closing (h : p.Closing halt) (main : List Step) : p.Settled main halt :=
  fun device state _ => (h.run device state).1

section Steps

variable {main : List Step}

theorem settled_write {report : Report} {next : Except LinkError Unit → Program _}
    {outcome : Except LinkError Unit} (h : Settled (α := α) (next outcome) main halt) :
    (write report next).Settled (.wrote report outcome :: main) halt := by
  intro σ device state hmain
  rw [run_write] at hmain ⊢
  obtain ⟨hstep, hrest⟩ := List.cons_prefix_cons.1 hmain
  obtain rfl : outcome = (device.write report state).1 := (Step.wrote.inj hstep).2
  exact h device _ hrest

theorem settled_read {timeout : Nat} {next : Except LinkError Report → Program _}
    {outcome : Except LinkError Report} (h : Settled (α := α) (next outcome) main halt) :
    (read timeout next).Settled (.read timeout outcome :: main) halt := by
  intro σ device state hmain
  rw [run_read] at hmain ⊢
  obtain ⟨hstep, hrest⟩ := List.cons_prefix_cons.1 hmain
  obtain rfl : outcome = (device.read timeout state).1 := (Step.read.inj hstep).2
  exact h device _ hrest

theorem settled_notify {event : Event} {next : Program _} (h : Settled (α := α) next main halt) :
    (notify event next).Settled (.told event :: main) halt := by
  intro σ device state hmain
  rw [run_notify] at hmain ⊢
  exact h device state (List.cons_prefix_cons.1 hmain).2

end Steps

section Accounts

variable {trace : List Step} {result : Except (Halt RemoteError) α}

theorem Ending.accounts (h : p.Ending halt) (hown : halt.Own wide) (device : Device σ) (state : σ) :
    p.Accounts farewell wide gone (p.run device state).trace (p.run device state).result := by
  obtain ⟨hresult, hcleanup⟩ := h.run device state
  rw [hresult]
  refine ⟨⟨[], _, rfl, ?_, hcleanup, settled_of_closing h.closing []⟩, ?_⟩
  · rw [hown.link?]
    rfl
  · rintro rfl
    exact hown

theorem accounts_write {report : Report} {next : Except LinkError Unit → Program _}
    (h : (next (.ok ())).Accounts farewell wide (gone || farewell report) trace result) :
    (write report next).Accounts farewell wide gone (.wrote report (.ok ()) :: trace) result := by
  cases result with
  | ok a => exact h
  | error halt =>
    obtain ⟨⟨main, cleanup, rfl, hmain, hcleanup, hsettled⟩, hwide⟩ := h
    exact ⟨⟨.wrote report (.ok ()) :: main, cleanup, rfl, hmain, hcleanup, settled_write hsettled⟩,
      hwide⟩

theorem accounts_read {timeout : Nat} {next : Except LinkError Report → Program _}
    {outcome : Except LinkError Report}
    (hstep : ∀ rest, failuresFrom farewell gone (.read timeout outcome :: rest) =
      failuresFrom farewell gone rest)
    (h : (next outcome).Accounts farewell wide gone trace result) :
    (read timeout next).Accounts farewell wide gone (.read timeout outcome :: trace) result := by
  cases result with
  | ok a => exact (hstep trace).trans h
  | error halt =>
    obtain ⟨⟨main, cleanup, rfl, hmain, hcleanup, hsettled⟩, hwide⟩ := h
    exact ⟨⟨.read timeout outcome :: main, cleanup, rfl, (hstep main).trans hmain, hcleanup,
      settled_read hsettled⟩, hwide⟩

theorem accounts_notify {event : Event} {next : Program _}
    (h : next.Accounts farewell wide gone trace result) :
    (notify event next).Accounts farewell wide gone (.told event :: trace) result := by
  cases result with
  | ok a => exact h
  | error halt =>
    obtain ⟨⟨main, cleanup, rfl, hmain, hcleanup, hsettled⟩, hwide⟩ := h
    exact ⟨⟨.told event :: main, cleanup, rfl, hmain, hcleanup, settled_notify hsettled⟩, hwide⟩

end Accounts

/-- What a run of an honest program on any device owes for its result. -/
theorem Honest.run (h : p.Honest farewell wide gone) (device : Device σ) (state : σ) :
    p.Accounts farewell wide gone (p.run device state).trace (p.run device state).result := by
  induction p generalizing gone state with
  | done result =>
    cases result with
    | ok a => rfl
    | error halt => exact Ending.accounts (p := .done (.error halt)) rfl (h halt rfl) device state
  | write report next ih =>
    rcases h with ⟨halt, hown, h⟩ | ⟨hok, herror⟩
    · exact h.accounts hown device state
    rw [run_write]
    obtain ⟨outcome, after⟩ := device.write report state
    cases outcome with
    | ok _ => exact accounts_write (ih _ hok after)
    | error cause =>
      obtain ⟨hresult, hcleanup⟩ := (herror cause).run device after
      dsimp only
      rw [hresult]
      refine ⟨⟨[.wrote report (.error cause)], _, rfl, rfl, hcleanup, settled_write ?_⟩, nofun⟩
      exact settled_of_closing (herror cause).closing []
  | read timeout next ih =>
    rw [run_read]
    obtain ⟨outcome, after⟩ := device.read timeout state
    cases outcome with
    | ok report => exact accounts_read (fun _ => rfl) (ih _ (h.1 report) after)
    | error cause =>
      have herror := h.2 cause
      split at herror
      · rename_i hexcused
        exact accounts_read (fun _ => if_pos hexcused) (ih _ herror after)
      · rename_i hcounts
        obtain ⟨hresult, hcleanup⟩ := herror.run device after
        dsimp only
        rw [hresult]
        refine ⟨⟨[.read timeout (.error cause)], _, rfl, if_neg hcounts, hcleanup, settled_read ?_⟩,
          nofun⟩
        exact settled_of_closing herror.closing []
  | notify event next ih =>
    rw [run_notify]
    exact accounts_notify (ih h state)

end Runs

/-! ## How honest programs are put together -/

section Rules

variable {farewell : Report → Bool} {wide : Prop} {gone : Bool} {halt : Halt RemoteError}

theorem Ending.honest {p : Program (Except (Halt RemoteError) α)} (h : p.Ending halt)
    (hown : halt.Own wide) : p.Honest farewell wide gone := by
  cases p with
  | done result =>
    intro other hother
    cases hother.symm.trans h
    exact hown
  | write report next => exact .inl ⟨halt, hown, h⟩
  | read timeout next => exact h.elim
  | notify event next => exact h.elim

variable {writes : Report → Prop} {fails : LinkError → α → Prop} {ends : α → Prop} {p : Program α}
  {f : α → Program (Except (Halt RemoteError) β)}

theorem Strict.closing_bind (h : p.Strict IsCleanup fails ends)
    (hfails : ∀ cause a, fails cause a → (f a).Closing halt)
    (hends : ∀ a, ends a → (f a).Closing halt) : (p.bind f).Closing halt := by
  have hfailed : ∀ {q : Program α} {cause : LinkError}, (∃ a, q = .done a ∧ fails cause a) →
      (q.bind f).Closing halt := by
    rintro _ cause ⟨a, rfl, ha⟩
    exact hfails cause a ha
  induction p with
  | done a => exact hends a h
  | write report next ih =>
    refine ⟨h.1, fun outcome => ?_⟩
    cases outcome with
    | ok _ => exact ih _ h.2.1
    | error cause => exact hfailed (h.2.2 cause)
  | read timeout next ih =>
    intro outcome
    cases outcome with
    | ok report => exact ih _ (h.1 report)
    | error cause => exact hfailed (h.2 cause)
  | notify event next ih => exact ih h

theorem Strict.honest_bind (h : p.Strict writes fails ends)
    (hwrites : ∀ report, writes report → farewell report = false)
    (hfails : ∀ cause a, fails cause a → (f a).Ending (.failed (.link cause)))
    (hends : ∀ a, ends a → (f a).Honest farewell wide false) :
    (p.bind f).Honest farewell wide false := by
  have hfailed : ∀ {q : Program α} {cause : LinkError}, (∃ a, q = .done a ∧ fails cause a) →
      (q.bind f).Ending (.failed (.link cause)) := by
    rintro _ cause ⟨a, rfl, ha⟩
    exact hfails cause a ha
  induction p with
  | done a => exact hends a h
  | write report next ih =>
    refine .inr ⟨?_, fun cause => hfailed (h.2.2 cause)⟩
    rw [hwrites report h.1]
    exact ih _ h.2.1
  | read timeout next ih => exact ⟨fun report => ih _ (h.1 report), fun cause => hfailed (h.2 cause)⟩
  | notify event next ih => exact ih h

end Rules

section Bind

variable {farewell : Report → Bool} {wide : Prop} {gone : Bool} {halt : Halt RemoteError}
  {p : Program (Except (Halt RemoteError) α)}
  {f : Except (Halt RemoteError) α → Program (Except (Halt RemoteError) β)}

theorem Closing.bind (h : p.Closing halt) (hf : f (.error halt) = .done (.error halt)) :
    (p.bind f).Closing halt := by
  induction p with
  | done result =>
    obtain rfl : result = .error halt := h
    rw [Program.bind, hf]
    rfl
  | write report next ih => exact ⟨h.1, fun outcome => ih _ (h.2 outcome)⟩
  | read timeout next ih => exact fun outcome => ih _ (h outcome)
  | notify event next ih => exact ih h

theorem Ending.bind (h : p.Ending halt) (hf : f (.error halt) = .done (.error halt)) :
    (p.bind f).Ending halt := by
  cases p with
  | done result =>
    obtain rfl : result = .error halt := h
    rw [Program.bind, hf]
    rfl
  | write report next => exact Closing.bind h hf
  | read timeout next => exact h.elim
  | notify event next => exact h.elim

/-- One honest program behind another one that changes nothing about what a timeout means. -/
theorem Honest.bind (h : p.Honest farewell wide gone)
    (hstays : ∀ report, (gone || farewell report) = gone)
    (hok : ∀ a, (f (.ok a)).Honest farewell wide gone)
    (herror : ∀ halt, f (.error halt) = .done (.error halt)) :
    (p.bind f).Honest farewell wide gone := by
  induction p with
  | done result =>
    cases result with
    | ok a => exact hok a
    | error halt =>
      rw [Program.bind, herror]
      intro other hother
      cases hother
      exact h halt rfl
  | write report next ih =>
    rcases h with ⟨halt, hown, h⟩ | ⟨hnext, hfailed⟩
    · exact .inl ⟨halt, hown, h.bind (herror halt)⟩
    · refine .inr ⟨?_, fun cause => (hfailed cause).bind (herror _)⟩
      rw [hstays] at hnext ⊢
      exact ih _ hnext
  | read timeout next ih =>
    refine ⟨fun report => ih _ (h.1 report), fun cause => ?_⟩
    have hcause := h.2 cause
    split at hcause
    · rename_i hexcused
      rw [if_pos hexcused]
      exact ih _ hcause
    · rename_i hcounts
      rw [if_neg hcounts]
      exact hcause.bind (herror _)
  | notify event next ih => exact ih h

end Bind

end Program

namespace Exchange

variable {farewell : Report → Bool} {wide : Prop} {gone : Bool} {halt : Halt RemoteError}
  {writes : Report → Prop}

abbrev Closing (halt : Halt RemoteError) (x : Exchange RemoteError α) : Prop :=
  x.run.Closing halt

abbrev Ending (halt : Halt RemoteError) (x : Exchange RemoteError α) : Prop :=
  x.run.Ending halt

abbrev Honest (farewell : Report → Bool) (wide : Prop) (gone : Bool) (x : Exchange RemoteError α) :
    Prop :=
  x.run.Honest farewell wide gone

theorem honest_pure (a : α) : (pure a : Exchange RemoteError α).Honest farewell wide gone :=
  fun _ h => nomatch h

theorem honest_throw (hown : halt.Own wide) :
    (throw halt : Exchange RemoteError α).Honest farewell wide gone := by
  intro other hother
  cases hother
  exact hown

theorem Honest.bind {x : Exchange RemoteError α} {f : α → Exchange RemoteError β}
    (h : x.Honest farewell wide gone) (hstays : ∀ report, (gone || farewell report) = gone)
    (hf : ∀ a, (f a).Honest farewell wide gone) : (x >>= f).Honest farewell wide gone :=
  Program.Honest.bind h hstays hf fun _ => rfl

section Strict

variable {x : Exchange RemoteError α} (h : x.Strict writes (Halt.Own wide))
  (hwrites : ∀ report, writes report → farewell report = false)
include h hwrites

theorem Strict.honest_bind {f : α → Exchange RemoteError β}
    (hf : ∀ a, (f a).Honest farewell wide false) : (x >>= f).Honest farewell wide false := by
  refine Program.Strict.honest_bind h hwrites (fun cause result hresult => ?_) fun result hresult => ?_
  · rw [hresult]
    exact rfl
  · cases result with
    | ok a => exact hf a
    | error halt => exact honest_throw (hresult halt rfl)

theorem Strict.honest : x.Honest farewell wide false := by
  have hbind := h.honest_bind hwrites honest_pure
  rwa [bind_pure] at hbind

/-- What is done behind an exchange that is tried: where it has succeeded, that is honest, and where it
has failed, that is the end. -/
theorem Strict.honest_attempt {f : Except RemoteError α → Exchange RemoteError β}
    (hok : ∀ a, (f (.ok a)).Honest farewell wide false)
    (herror : ∀ cause, (f (.error cause)).Ending (.failed cause)) :
    (attempt x >>= f).Honest farewell wide false := by
  change ((x.run.bind _).bind _).Honest farewell wide false
  rw [Program.bind_assoc]
  refine Program.Strict.honest_bind h hwrites (fun cause result hresult => ?_) fun result hresult => ?_
  · rw [hresult]
    exact herror (.link cause)
  · match result with
    | .ok a => exact hok a
    | .error (.failed cause) => exact (herror cause).honest (hresult _ rfl)
    | .error .overflow => exact honest_throw (hresult _ rfl)
    | .error .stalled => exact honest_throw (hresult _ rfl)

end Strict

/-- What goes on only where a condition does not hold. -/
theorem Strict.honest_unless {condition : Prop} [Decidable condition]
    {x : Exchange RemoteError PUnit} {f : PUnit → Exchange RemoteError β}
    (h : x.Strict writes (Halt.Own wide))
    (hwrites : ∀ report, writes report → farewell report = false)
    (hf : (f ⟨⟩).Honest farewell wide false) :
    (if condition then x >>= f else f ⟨⟩).Honest farewell wide false := by
  split
  · exact h.honest_bind hwrites fun _ => hf
  · exact hf

/-- A clean-up message is tried, and its outcome does not matter. -/
theorem closing_attempt {x : Exchange RemoteError α} {f : Except RemoteError α → Exchange RemoteError β}
    (h : x.Strict IsCleanup fun _ => False) (hf : ∀ outcome, (f outcome).Closing halt) :
    (attempt x >>= f).Closing halt := by
  change ((x.run.bind _).bind _).Closing halt
  rw [Program.bind_assoc]
  refine Program.Strict.closing_bind h (fun cause result hresult => ?_) fun result hresult => ?_
  · rw [hresult]
    exact hf (.error (.link cause))
  · cases result with
    | ok a => exact hf (.ok a)
    | error halt => exact (hresult halt rfl).elim

theorem honest_farewell {report : Report} {f : Unit → Exchange RemoteError β}
    (h : farewell report = true) (hf : (f ()).Honest farewell wide true) :
    (send report >>= f).Honest farewell wide false := by
  refine .inr ⟨?_, fun _ => rfl⟩
  rw [h]
  exact hf

/-- A read is tried behind a message of farewell, where a timeout is no failure. -/
theorem honest_attempt_receive {k : Report → Exchange RemoteError α}
    {f : Except RemoteError α → Exchange RemoteError β} {timeout : Nat}
    (hok : ∀ report, (attempt (k report) >>= f).Honest farewell wide true)
    (hexcused : ∀ cause, cause.timedOut = true →
      (f (.error (.link cause))).Honest farewell wide true)
    (hcounts : ∀ cause, cause.timedOut = false →
      (f (.error (.link cause))).Ending (.failed (.link cause))) :
    (attempt (receive timeout >>= k) >>= f).Honest farewell wide true := by
  refine ⟨hok, fun cause => ?_⟩
  cases htimedOut : cause.timedOut with
  | true => exact hexcused cause htimedOut
  | false => exact hcounts cause htimedOut

/-! ## Exchanges without a farewell -/

/-- Accounts for its failures, all reads that time out among them. -/
abbrev Candid (wide : Prop) (x : Exchange RemoteError α) : Prop :=
  x.Honest (fun _ => false) wide false

theorem Direct.candid {x : Exchange RemoteError α} (h : x.Direct wide) : x.Candid wide :=
  Strict.honest h fun _ _ => rfl

theorem Candid.bind {x : Exchange RemoteError α} {f : α → Exchange RemoteError β}
    (h : x.Candid wide) (hf : ∀ a, (f a).Candid wide) : (x >>= f).Candid wide :=
  Honest.bind h (fun _ => rfl) hf

theorem Direct.candid_attempt {x : Exchange RemoteError α}
    {f : Except RemoteError α → Exchange RemoteError β} (h : x.Direct wide)
    (hok : ∀ a, (f (.ok a)).Candid wide)
    (herror : ∀ cause, (f (.error cause)).Ending (.failed cause)) : (attempt x >>= f).Candid wide :=
  Strict.honest_attempt h (fun _ _ => rfl) hok herror

end Exchange

end UniversalRemote
