import UniversalRemote.Proofs.Link.Observed
import UniversalRemote.Proofs.Remote.Terms
/-!
# Remotes on observed links

An errand is what a host does with one remote: operations one after another, each of which may depend on
what came of those before. `Errand.observed_unchanged` says that observing the link makes no difference
to an errand, and that the reports which an observer is told of are those that went over the link.
-/

namespace UniversalRemote

/-- An observer is told of progress and of nothing else. -/
def Terms.progressOnly : Terms where
  writes _ := True
  ends _ := True
  ends_protocol _ _ := trivial
  tells event := ∃ stage current total, event = .progress stage current total
  tells_progress stage current total := ⟨stage, current, total, rfl⟩

namespace Remote

/-- An exchange with a remote that is known as before behind it. -/
def keeping (r : Remote) (x : Exchange RemoteError α) :
    Program (Except (Halt RemoteError) α × Remote) :=
  x.run.bind fun answer => .done (answer, r)

section Keeping

variable (r : Remote) (x : Exchange RemoteError α) (device : Device σ) (state : σ)

theorem trace_keeping : ((r.keeping x).run device state).trace = (x.run.run device state).trace := by
  rw [keeping, Program.run_bind]
  exact List.append_nil _

theorem remote_keeping : ((r.keeping x).run device state).result.2 = r := by
  rw [keeping, Program.run_bind]
  rfl

end Keeping

/-- What the host remembers of an identity leaves the family as it is. -/
theorem family_identify (r : Remote) (device : Device σ) (state : σ) :
    (r.identify.run device state).result.2.family = r.family := by
  have hkept : ∀ x : Exchange RemoteError Identity,
      ((r.keeping x).run device state).result.2.family = r.family :=
    fun x => congrArg Remote.family (r.remote_keeping x device state)
  unfold identify
  split
  · simp only [bind, Program.run_bind]
    rfl
  all_goals exact hkept _

end Remote

namespace Call

variable {family : Family} {r : Remote}

/-- An operation tells an observer of progress only. -/
theorem told_progress (hfamily : r.family = family) (call : Call family α) (device : Device σ)
    (state : σ) : ∀ event ∈ ((call.perform r).run.run device state).trace.filterMap Step.event?,
      ∃ stage current total, event = .progress stage current total := by
  have hgrants : family.Grants .progressOnly :=
    ⟨fun _ _ => trivial, trivial, trivial, fun _ _ => trivial⟩
  have hgranted : call.Granted .progressOnly := by
    cases call with
    | identify => exact fun _ _ => trivial
    | setClock t => exact fun _ _ => trivial
    | _ => trivial
  have hmeets : ∀ cause, Terms.progressOnly.Meets cause := fun _ => trivial
  have hprompt := prompt_perform hfamily hgrants call hgranted
  exact hprompt.told (device.honours_of_forall hmeets) trivial

/-- What a remote does for an operation, and the remote as the host knows it from then on. -/
def act (r : Remote) : Call family α → Program (Except (Halt RemoteError) α × Remote)
  | identify => r.identify
  | call => r.keeping (call.perform r)

/-- What is remembered of the remote changes nothing about the steps of an operation. -/
theorem trace_act (call : Call family α) (device : Device σ) (state : σ) :
    ((call.act r).run device state).trace = ((call.perform r).run.run device state).trace := by
  cases call with
  | identify =>
    change _ = ((r.identify.bind fun answer => .done answer.1).run device state).trace
    rw [Program.run_bind]
    exact (List.append_nil _).symm
  | _ => exact r.trace_keeping _ device state

theorem family_act (call : Call family α) (device : Device σ) (state : σ) :
    ((call.act r).run device state).result.2.family = r.family := by
  cases call with
  | identify => exact r.family_identify device state
  | _ => exact congrArg Remote.family (r.remote_keeping _ device state)

end Call

/-- What a host does with one remote: operations one after another, each chosen by what came of those
before. -/
inductive Errand (family : Family) (β : Type) : Type 1 where
  | finished (b : β)
  | call {α : Type} (operation : Call family α)
    (next : Except (Halt RemoteError) α → Errand family β)

namespace Errand

variable {family : Family} {r : Remote}

/-- An errand as a program, which also gives the remote as the host knows it in the end. -/
def program : Errand family β → Remote → Program (β × Remote)
  | finished b, r => .done (b, r)
  | call operation next, r => (operation.act r).bind fun answer => (next answer.1).program answer.2

/-- An errand tells an observer of no report by itself. -/
theorem told_no_packet (errand : Errand family β) (hfamily : r.family = family) (device : Device σ)
    (state : σ) : ∀ event ∈ ((errand.program r).run device state).trace.filterMap Step.event?,
      event.isPacket = false := by
  induction errand generalizing r state with
  | finished b => exact nofun
  | call operation next ih =>
    intro event hevent
    rw [program, Program.run_bind] at hevent
    rw [List.filterMap_append, List.mem_append, operation.trace_act] at hevent
    rcases hevent with hfirst | hrest
    · obtain ⟨stage, current, total, rfl⟩ := operation.told_progress hfamily device state event hfirst
      rfl
    · exact ih _ ((operation.family_act device state).trans hfamily) _ event hrest

/-- On an observed link an errand comes to the same results by the same writes and reads as on the bare
link, whatever the observer. The reports that the observer is told of are those that were written and
those that were read and are not empty, in order. -/
theorem observed_unchanged (errand : Errand family β) (hfamily : r.family = family)
    (device : Device σ) (state : σ) (see : ω → Event → ω) (seen : ω) :
    let bare := (errand.program r).run device state
    let run := ((errand.program r).observed.attended see seen).run device state
    run.result.1 = bare.result ∧ run.state = bare.state ∧
      transfers run.trace = transfers bare.trace ∧
      run.trace = bare.trace.flatMap Step.shown ∧
      run.result.2 = (run.trace.filterMap Step.event?).foldl see seen ∧
      (run.trace.filterMap Step.event?).filter Event.isPacket =
        (transfers bare.trace).filterMap Step.packet? := by
  intro bare run
  have hsilent : ∀ event ∈ bare.trace.filterMap Step.event?, event.isPacket = false :=
    errand.told_no_packet hfamily device state
  have hrun : run = { bare with
      result := (bare.result, ((bare.trace.flatMap Step.shown).filterMap Step.event?).foldl see seen)
      trace := bare.trace.flatMap Step.shown } := by
    show ((errand.program r).observed.attended see seen).run device state = _
    rw [Program.run_attended, Program.run_observed]
  clear_value bare run
  subst hrun
  exact ⟨rfl, rfl, transfers_flatMap_shown bare.trace, rfl, rfl,
    packets_flatMap_shown bare.trace hsilent⟩

/-- A clock that is set, a reading of it that comes back empty, and a restart that is not sent, before
an observer that counts. -/
theorem observed_unchanged_empty_read :
    let r : Remote := ⟨.zNet, 4, none⟩
    let t : DateTime := ⟨2010, 1, 2, 3, 4, 5, 6, 0, ""⟩
    let errand : Errand .zNet (Except (Halt RemoteError) Unit) :=
      .call (.setClock t) fun _ => .call .readClock fun _ => .call (.restart .device) .finished
    let s : Script := {
      reads := [.report [0x20, 0x71, 0x81, 0], .report []]
      failures := fun n => if n = 2 then some .disconnected else none }
    let bare := (errand.program r).run Script.device s
    let run := ((errand.program r).observed.attended (fun n _ => n + 1) 0).run Script.device s
    let message : Report := [0x20, 0x71, 0x80, 9, 2, 0x07, 0xDA, 1, 1, 1, 2, 1, 3, 1, 4, 1, 5, 1, 6,
      2, 0, 0, 1, 0]
    r.family = .zNet ∧ run.result.1 = bare.result ∧ run.result.2 = 4 ∧
      bare.result.1 = .error (.failed (.link .disconnected)) ∧
      (run.trace.filterMap Step.event?).filter Event.isPacket =
        [.packet .sent 24 (some message), .packet .received 4 (some [0x20, 0x71, 0x81, 0]),
          .packet .sent 4 (some [0x20, 0x70, 0x80, 0])] := by
  intro r t errand s bare run message
  obtain ⟨hresult, -, -, -, -, hpackets⟩ :=
    errand.observed_unchanged (r := r) rfl Script.device s (fun n _ => n + 1) 0
  have hcount : run.result.2 = 4 := by decide +kernel
  have hrestart : bare.result.1 = .error (.failed (.link .disconnected)) := by decide +kernel
  have hreports : (transfers bare.trace).filterMap Step.packet? =
      [.packet .sent 24 (some message), .packet .received 4 (some [0x20, 0x71, 0x81, 0]),
        .packet .sent 4 (some [0x20, 0x70, 0x80, 0])] := by decide +kernel
  refine ⟨rfl, ?_, hcount, hrestart, hpackets.trans hreports⟩
  unfold run bare
  exact hresult

end Errand

end UniversalRemote
