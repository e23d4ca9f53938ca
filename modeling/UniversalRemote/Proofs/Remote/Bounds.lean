import UniversalRemote.Proofs.Classic.Access
import UniversalRemote.Proofs.FileTransfer.Access
import UniversalRemote.Proofs.Remote.Failures
import UniversalRemote.Proofs.Z.Access
/-!
# No operation leaves its bounds

Whatever a remote sends, no operation with bounded arguments leaves a machine word, and no part of
one looks up a place that is not there. The parts are compared with others in which every access and
every sum may fail: these are the same, so that none does.
-/

namespace UniversalRemote

open Exchange

section Strict

variable {writes : Report → Prop} {fails : LinkError → α → Prop} {ends : α → Prop}

theorem Program.Strict.ensures (good : α → Prop) {p : Program α} (h : p.Strict writes fails ends)
    (hfails : ∀ cause a, fails cause a → good a) (hends : ∀ a, ends a → good a) (past : List Step) :
    p.Ensures (fun _ _ => True) (fun _ a => good a) past := by
  have hfailed : ∀ {q : Program α} {cause : LinkError} {past : List Step},
      (∃ a, q = .done a ∧ fails cause a) → q.Ensures (fun _ _ => True) (fun _ a => good a) past := by
    rintro _ cause past ⟨a, rfl, ha⟩
    exact hfails cause a ha
  induction p generalizing past with
  | done a => exact hends a h
  | write report next ih =>
    refine ⟨trivial, fun outcome => ?_⟩
    cases outcome with
    | ok _ => exact ih _ h.2.1 _
    | error cause => exact hfailed (h.2.2 cause)
  | read timeout next ih =>
    intro outcome
    cases outcome with
    | ok report => exact ih _ (h.1 report) _
    | error cause => exact hfailed (h.2 cause)
  | notify event next ih => exact ih h _

/-- What an exchange does that leaves no machine word. -/
abbrev Exchange.Bounded (x : Exchange RemoteError α) (past : List Step) : Prop :=
  x.Concludes (fun _ _ => True) (fun _ halt => halt ≠ .overflow) (fun _ _ => True) past

theorem Exchange.Strict.bounded {x : Exchange RemoteError α} (h : x.Strict writes (Halt.Own False))
    (past : List Step) : x.Bounded past := by
  refine Program.Ensures.weaken (Program.Strict.ensures
    (fun result => ∀ halt, result = .error halt → halt ≠ .overflow) h ?_ ?_ past) ?_
  · rintro cause _ rfl halt hhalt rfl
    cases hhalt
  · rintro result hown halt hhalt rfl
    exact hown _ hhalt
  · intro later _ result hresult
    cases result with
    | ok a => trivial
    | error halt => exact hresult halt rfl

end Strict

namespace Call

variable {family : Family} {r : Remote}

/-- A Z remote that leaves the link before it has answered is restarted all the same. -/
theorem bounded_restart {link : Z.Link} (h : Z.StrictLink writes False link) (kind : Restart)
    (past : List Step) : (Z.restart link kind).Bounded past := by
  unfold Z.restart
  dsimp only
  split
  · exact concludes_throw nofun
  refine concludes_bind (concludes_attempt ?_)
  refine ((h 0x1B link.none Z.restartWait).bounded past).weaken (fun later halt hhalt => ?_)
    fun later _ _ => trivial
  cases halt with
  | failed cause =>
    show Exchange.Bounded (if cause.timedOut then pure () else fail cause) later
    split
    · trivial
    · exact concludes_throw nofun
  | overflow => exact (hhalt rfl).elim
  | stalled => exact nofun

theorem bounded_perform_restart (hz : r.family = .zHid ∨ r.family = .zNet) (kind : Restart) :
    (r.restart kind).Bounded [] := by
  unfold Remote.restart
  split
  · rename_i hclassic
    rw [hclassic] at hz
    exact absurd hz (by decide)
  · exact bounded_restart Z.strict_hidLink kind []
  · exact bounded_restart strict_netLink kind []
  · rename_i hmh
    rw [hmh] at hz
    exact absurd hz (by decide)

theorem perform_ne_overflow (hfamily : r.family = family) (call : Call family α)
    (hbounded : call.Bounded r) (device : Device σ) (state : σ) :
    ((call.perform r).run.run device state).result ≠ .error .overflow := by
  intro hresult
  by_cases hrestart : call.RestartsZ
  · cases call with
    | restart kind =>
      have hpost := ((bounded_perform_restart (hfamily ▸ hrestart) kind).run device state).1
      rw [show ((r.restart kind).run.run device state).result = _ from hresult] at hpost
      exact hpost rfl
    | _ => exact hrestart
  · have hhonest : (call.perform r).Honest r.farewell False false :=
      honest_perform hfamily call hrestart fun _ => hbounded
    have haccounts := hhonest.run device state
    rw [hresult] at haccounts
    exact haccounts.2 rfl

/-- What is read and counted in the course of an operation, each time compared with a reading or a sum
that fails where a place is missing or a word is left. -/
structure WithinBounds : Prop where
  numbers : ∀ (s : Sequence) (amount : UInt8), s.skip? amount = some (s.skip amount)
  serials : ∀ raw, Serial.ofBytes? raw = some (Serial.ofBytes raw)
  parameters : ParameterList.WithinBounds
  classic : Classic.WithinBounds
  z : Z.WithinBounds
  files : FileTransfer.WithinBounds

/-- Whatever a remote does, an operation with bounded arguments leaves no machine word, and no place
that its parts look up is missing. -/
theorem never_leaves_bounds (hfamily : r.family = family) (call : Call family α)
    (hbounded : call.Bounded r) (device : Device σ) (state : σ) :
    ((call.perform r).run.run device state).result ≠ .error .overflow ∧ WithinBounds := by
  refine ⟨perform_ne_overflow hfamily call hbounded device state, ?_⟩
  exact {
    numbers := Sequence.skip?_eq
    serials := Serial.ofBytes?_eq
    parameters := ParameterList.withinBounds
    classic := Classic.withinBounds
    z := Z.withinBounds
    files := FileTransfer.withinBounds }

/-- The last two bytes that addresses reach. -/
theorem never_leaves_bounds_last_bytes :
    let r : Remote := ⟨.classic, 4, some ⟨1, 8⟩⟩
    let call : Call .classic (List UInt8) := .readFlash 0xFFFFFFFE 2
    let s : Script := { reads := [.report [0x63, 0x01, 0x2A, 0x2B], .report [0xF0]] }
    r.family = .classic ∧ call.Bounded r ∧
      ((call.perform r).run.run Script.device s).result = .ok [0x2A, 0x2B] ∧
      ((call.perform r).run.run Script.device s).result ≠ .error .overflow ∧ WithinBounds := by
  intro r call s
  have hbounded : call.Bounded r := fun _ => by decide
  exact ⟨rfl, hbounded, rfl, never_leaves_bounds (r := r) rfl call hbounded Script.device s⟩

end Call

end UniversalRemote
