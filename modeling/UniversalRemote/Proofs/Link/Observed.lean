import UniversalRemote.Link.Observed
import UniversalRemote.Proofs.Link.Lockstep
/-!
# What an observed link adds

On an observed link, a run has the result and the traffic that it has on the bare link. Its trace is that
of the bare link with one event right behind each report that went over (`Program.run_observed`). An
observer takes events in and gives nothing back, so no observer makes a difference to a run
(`Program.run_attended`).
-/

namespace UniversalRemote

def Event.isPacket : Event → Bool
  | packet _ _ _ => true
  | _ => false

namespace Step

/-- What is told of a step on an observed link: the length and the first 32 bytes of a report that was
written, or of one that was read and is not empty. -/
def packet? : Step → Option Event
  | wrote report (.ok ()) => some (.packet .sent report.length (some (report.take 32)))
  | read _ (.ok report) =>
    if report = [] then none
    else some (.packet .received report.length (some (report.take 32)))
  | _ => none

/-- A step as it goes on an observed link. -/
def shown (step : Step) : List Step :=
  step :: step.packet?.toList.map .told

theorem event?_of_isTransfer {step : Step} (h : step.isTransfer = true) : step.event? = none := by
  cases step with
  | told event => cases h
  | wrote | read => rfl

theorem isPacket_of_packet? {step : Step} {event : Event} (h : step.packet? = some event) :
    event.isPacket = true ∧ step.isTransfer = true := by
  unfold packet? at h
  split at h
  · cases h
    exact ⟨rfl, rfl⟩
  · split at h <;> cases h
    exact ⟨rfl, rfl⟩
  · cases h

theorem transfers_shown (step : Step) : transfers step.shown = transfers [step] := by
  cases hpacket : step.packet? with
  | none => simp [shown, hpacket]
  | some event =>
    have htold : (told event).isTransfer = false := rfl
    simp [shown, hpacket, transfers, List.filter_cons, htold]

/-- Where a step itself tells of no report, the report told of is the one that went over. -/
theorem packets_shown (step : Step) (h : ∀ event, step.event? = some event → event.isPacket = false) :
    (step.shown.filterMap event?).filter Event.isPacket = (transfers [step]).filterMap packet? := by
  cases hpacket : step.packet? with
  | none =>
    have hright : (transfers [step]).filterMap packet? = [] := by
      cases step <;> simp [transfers, isTransfer, hpacket]
    cases hevent : step.event? with
    | none => simp [shown, hpacket, hevent, hright]
    | some event => simp [shown, hpacket, hevent, h event hevent, hright]
  | some event =>
    obtain ⟨htold, htransfer⟩ := isPacket_of_packet? hpacket
    have hsilent : (told event).event? = some event := rfl
    simp [shown, hpacket, event?_of_isTransfer htransfer, hsilent, htold, transfers, htransfer]

end Step

section Traces

variable (trace : List Step)

theorem transfers_flatMap_shown : transfers (trace.flatMap Step.shown) = transfers trace := by
  induction trace with
  | nil => rfl
  | cons step rest ih =>
    calc transfers ((step :: rest).flatMap Step.shown)
      _ = transfers step.shown ++ transfers (rest.flatMap Step.shown) := List.filter_append ..
      _ = transfers [step] ++ transfers rest := by rw [step.transfers_shown, ih]
      _ = transfers (step :: rest) := (List.filter_append ..).symm

/-- Where the bare link tells of no report, the reports told of are those that went over, in order. -/
theorem packets_flatMap_shown
    (h : ∀ event ∈ trace.filterMap Step.event?, event.isPacket = false) :
    ((trace.flatMap Step.shown).filterMap Step.event?).filter Event.isPacket =
      (transfers trace).filterMap Step.packet? := by
  induction trace with
  | nil => rfl
  | cons step rest ih =>
    have hstep : ∀ event, step.event? = some event → event.isPacket = false := by
      intro event hevent
      exact h event (List.mem_filterMap.2 ⟨step, List.mem_cons_self, hevent⟩)
    have hrest : ∀ event ∈ rest.filterMap Step.event?, event.isPacket = false := by
      intro event hevent
      obtain ⟨other, hother, htold⟩ := List.mem_filterMap.1 hevent
      exact h event (List.mem_filterMap.2 ⟨other, List.mem_cons_of_mem step hother, htold⟩)
    have hsplit : transfers (step :: rest) = transfers [step] ++ transfers rest :=
      List.filter_append [step] rest
    rw [List.flatMap_cons, List.filterMap_append, List.filter_append, step.packets_shown hstep,
      ih hrest, hsplit, List.filterMap_append]

end Traces

namespace Program

/-- The run of a program on an observed link. -/
theorem run_observed (p : Program α) (device : Device σ) (state : σ) :
    p.observed.run device state =
      { p.run device state with trace := (p.run device state).trace.flatMap Step.shown } := by
  induction p generalizing state with
  | done a => rfl
  | notify event next ih =>
    rw [observed, run_notify, run_notify, ih]
    rfl
  | write report next ih =>
    rw [observed, run_write, run_write]
    generalize device.write report state = answer
    obtain ⟨outcome, after⟩ := answer
    cases outcome with
    | ok _ =>
      simp only [run_notify, ih]
      rfl
    | error cause =>
      simp only [ih]
      rfl
  | read timeout next ih =>
    rw [observed, run_read, run_read]
    generalize device.read timeout state = answer
    obtain ⟨outcome, after⟩ := answer
    match outcome with
    | .ok [] =>
      simp only [ih]
      rfl
    | .ok (b :: rest) =>
      simp only [run_notify, ih]
      rfl
    | .error cause =>
      simp only [ih]
      rfl

/-- A program in front of an observer, with what the observer makes of one event after another. -/
def attended (see : ω → Event → ω) : Program α → ω → Program (α × ω)
  | done a, seen => .done (a, seen)
  | write report next, seen => .write report fun outcome => (next outcome).attended see seen
  | read timeout next, seen => .read timeout fun outcome => (next outcome).attended see seen
  | notify event next, seen => .notify event (next.attended see (see seen event))

/-- An observer changes nothing about a run. -/
theorem run_attended (see : ω → Event → ω) (p : Program α) (seen : ω) (device : Device σ)
    (state : σ) :
    (p.attended see seen).run device state =
      let run := p.run device state
      { run with result := (run.result, (run.trace.filterMap Step.event?).foldl see seen) } := by
  induction p generalizing state seen with
  | done a => rfl
  | write report next ih =>
    rw [attended, run_write, run_write]
    simp only [ih]
    rfl
  | read timeout next ih =>
    rw [attended, run_read, run_read]
    simp only [ih]
    rfl
  | notify event next ih =>
    rw [attended, run_notify, run_notify, ih]
    rfl

end Program

end UniversalRemote
