import UniversalRemote.Link.Script
import UniversalRemote.Proofs.Link.Dialogue
import UniversalRemote.Z.Net
/-!
# Restarts

A restart is asked for in one report, and the remote may leave the link before it answers. What
becomes of that report is one of three things (`Fate`), and each says how the restart ends. A host
that hears nothing in time goes on as if it had been answered, and does so as well where it was the
request that could not be written in time (`restart_without_request`).
-/

namespace UniversalRemote.Z

open Exchange

/-- How a link carries a request for a restart. -/
structure Carriage where
  link : Link
  /-- The report that asks for the restart. -/
  request : Report
  /-- What a report says in answer. -/
  answer : Report → Except ProtocolError Response
  request_eq : link.request 0x1B link.none restartWait = (do
    send request
    check (answer (← receive restartWait)))

namespace Carriage

def hid : Carriage where
  link := hidLink
  request := datagram 0x1B []
  answer := Response.ofDatagram
  request_eq := rfl

def net : Carriage where
  link := netLink
  request := [0x20, 0x1B, 0x80, 0x00]
  answer := Response.ofMessage
  request_eq := rfl

end Carriage

inductive Fate where
  | unwritten (cause : LinkError)
  | unanswered (cause : LinkError)
  | answered (report : Report)

/-- What a restart makes of a failed transfer, of a write just as of a read. -/
def unlessLate (cause : LinkError) : Except (Halt RemoteError) Unit :=
  if cause.timedOut then .ok () else .error (.failed (.link cause))

theorem unlessLate_eq_ok_iff {cause : LinkError} :
    unlessLate cause = .ok () ↔ ∃ ms, cause = .timeout ms := by
  cases cause with
  | timeout ms => exact ⟨fun _ => ⟨ms, rfl⟩, fun _ => rfl⟩
  | _ => exact ⟨nofun, nofun⟩

theorem unlessLate_eq_link_iff {own cause : LinkError} :
    unlessLate own = .error (.failed (.link cause)) ↔ cause.timedOut = false ∧ own = cause := by
  unfold unlessLate
  cases hlate : own.timedOut with
  | true =>
    refine ⟨nofun, ?_⟩
    rintro ⟨hprompt, rfl⟩
    exact absurd hlate (Bool.eq_false_iff.1 hprompt)
  | false =>
    constructor
    · intro h
      cases h
      exact ⟨hlate, rfl⟩
    · rintro ⟨-, rfl⟩
      rfl

theorem unlessLate_ne_protocol {own : LinkError} {cause : ProtocolError} :
    unlessLate own ≠ .error (.failed (.protocol cause)) := by
  unfold unlessLate
  cases own.timedOut <;> exact nofun

namespace Fate

variable (c : Carriage)

def dialogue : Fate → List Turn
  | unwritten cause => [.wrote c.request (.error cause)]
  | unanswered cause => [.say c.request, .read (.error cause)]
  | answered report => [.say c.request, .hear report]

def verdict : Fate → Except (Halt RemoteError) Unit
  | unwritten cause | unanswered cause => unlessLate cause
  | answered report =>
    match c.answer report with
    | .ok _ => .ok ()
    | .error cause => .error (.failed (.protocol cause))

end Fate

theorem takes_unlessLate {cause : LinkError} {dialogue : List Turn}
    {result : Except (Halt RemoteError) Unit}
    (h : (if cause.timedOut then pure () else fail (.link cause) :
      Exchange RemoteError Unit).run.Takes dialogue result) :
    dialogue = [] ∧ result = unlessLate cause := by
  unfold unlessLate
  cases hlate : cause.timedOut with
  | true =>
    rw [hlate] at h
    exact ⟨h.1, h.2.symm⟩
  | false =>
    rw [hlate] at h
    exact ⟨h.1, h.2.symm⟩

theorem exists_fate_of_takes (c : Carriage) {dialogue : List Turn}
    {result : Except (Halt RemoteError) Unit}
    (h : (restart c.link .device).run.Takes dialogue result) :
    ∃ fate : Fate, dialogue = fate.dialogue c ∧ result = fate.verdict c := by
  unfold restart at h
  rw [c.request_eq] at h
  -- the cases are those of the write, and behind one that succeeded those of the read
  obtain ⟨cause | _, rest, rfl, hread⟩ := h
  · obtain ⟨rfl, rfl⟩ := takes_unlessLate hread
    exact ⟨.unwritten cause, rfl, rfl⟩
  obtain ⟨cause | report, rest, rfl, hanswer⟩ := hread
  · obtain ⟨rfl, rfl⟩ := takes_unlessLate hanswer
    exact ⟨.unanswered cause, rfl, rfl⟩
  · refine ⟨.answered report, ?_⟩
    change Program.Takes (((check (c.answer report)).run.bind _).bind _) rest result at hanswer
    show _ ∧ result = match c.answer report with
      | .ok _ => .ok ()
      | .error cause => .error (.failed (.protocol cause))
    cases hdecoded : c.answer report with
    | ok response =>
      rw [hdecoded] at hanswer
      obtain ⟨rfl, rfl⟩ := hanswer
      exact ⟨rfl, rfl⟩
    | error cause =>
      rw [hdecoded] at hanswer
      obtain ⟨rfl, rfl⟩ := hanswer
      exact ⟨rfl, rfl⟩

namespace Fate

variable {c : Carriage} {fate other : Fate}

theorem dialogue_inj : fate.dialogue c = other.dialogue c ↔ fate = other := by
  refine ⟨fun h => ?_, congrArg _⟩
  cases fate <;> cases other <;> cases h <;> rfl

theorem verdict_eq_ok_iff : fate.verdict c = .ok () ↔
    (∃ ms, fate = .unwritten (.timeout ms)) ∨ (∃ ms, fate = .unanswered (.timeout ms)) ∨
      ∃ report response, fate = .answered report ∧ c.answer report = .ok response := by
  rcases fate with own | own | report
  · simp [verdict, unlessLate_eq_ok_iff]
  · simp [verdict, unlessLate_eq_ok_iff]
  · cases hanswer : c.answer report <;> simp [verdict, hanswer]

theorem verdict_eq_link_iff {cause : LinkError} :
    fate.verdict c = .error (.failed (.link cause)) ↔
      cause.timedOut = false ∧ (fate = .unwritten cause ∨ fate = .unanswered cause) := by
  rcases fate with own | own | report
  · simp [verdict, unlessLate_eq_link_iff]
  · simp [verdict, unlessLate_eq_link_iff]
  · cases hanswer : c.answer report <;> simp [verdict, hanswer]

theorem verdict_eq_protocol_iff {cause : ProtocolError} :
    fate.verdict c = .error (.failed (.protocol cause)) ↔
      ∃ report, fate = .answered report ∧ c.answer report = .error cause := by
  rcases fate with own | own | report
  · simp [verdict, unlessLate_ne_protocol]
  · simp [verdict, unlessLate_ne_protocol]
  · cases hanswer : c.answer report <;> simp [verdict, hanswer]

end Fate

namespace Carriage

/-- How a restart ends, by what became of its request. -/
structure Restarts (c : Carriage) (run : Run σ (Except (Halt RemoteError) Unit)) : Prop where
  /-- A restart ends well behind a request that was written, with an answer or with none in time.
  Otherwise it does only where the request could not be written in time. -/
  ok_iff : run.result = .ok () ↔
    (∃ ms, turns run.trace = [.wrote c.request (.error (.timeout ms))]) ∨
    (∃ ms, turns run.trace = [.say c.request, .read (.error (.timeout ms))]) ∨
    ∃ report response, turns run.trace = [.say c.request, .hear report] ∧
      c.answer report = .ok response
  /-- Every other failure of the link is reported, of either transfer. -/
  failed_iff : ∀ cause, run.result = .error (.failed (.link cause)) ↔ cause.timedOut = false ∧
    (turns run.trace = [.wrote c.request (.error cause)] ∨
      turns run.trace = [.say c.request, .read (.error cause)])
  /-- So is an answer that makes no sense. -/
  refused_iff : ∀ cause, run.result = .error (.failed (.protocol cause)) ↔
    ∃ report, turns run.trace = [.say c.request, .hear report] ∧ c.answer report = .error cause

theorem restarts (c : Carriage) (device : Device σ) (state : σ) :
    c.Restarts ((restart c.link .device).run.run device state) := by
  obtain ⟨fate, hturns, hresult⟩ := exists_fate_of_takes c
    (Program.takes_run (restart c.link .device).run device state)
  have hfate (other : Fate) : turns ((restart c.link .device).run.run device state).trace =
      other.dialogue c ↔ fate = other := by
    rw [hturns]
    exact Fate.dialogue_inj
  constructor
  · rw [hresult, Fate.verdict_eq_ok_iff]
    simp only [← hfate]
    rfl
  · intro cause
    rw [hresult, Fate.verdict_eq_link_iff, ← hfate, ← hfate]
    rfl
  · intro cause
    rw [hresult, Fate.verdict_eq_protocol_iff]
    simp only [← hfate]
    rfl

end Carriage

/-- Over either kind of link and whatever the device does, a restart ends well only if its request
was written, but for one that could not be written in time. -/
theorem restart_reported (device : Device σ) (state : σ) :
    Carriage.hid.Restarts ((restart hidLink .device).run.run device state) ∧
      Carriage.net.Restarts ((restart netLink .device).run.run device state) :=
  ⟨Carriage.hid.restarts device state, Carriage.net.restarts device state⟩

/-- A host whose request could not be written in time takes the remote for restarted. -/
theorem restart_without_request :
    let stuck : Script := { reads := [], failures := fun _ => some (.timeout 1000) }
    let hid := (restart hidLink .device).run.run Script.device stuck
    let net := (restart netLink .device).run.run Script.device stuck
    (hid.result = .ok () ∧
      turns hid.trace = [.wrote [0x03, 0x01, 0x00, 0x1B] (.error (.timeout 1000))]) ∧
    net.result = .ok () ∧
      turns net.trace = [.wrote [0x20, 0x1B, 0x80, 0x00] (.error (.timeout 1000))] :=
  ⟨⟨rfl, rfl⟩, rfl, rfl⟩

end UniversalRemote.Z
