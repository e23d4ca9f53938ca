import UniversalRemote.Proofs.Link.Dialogue
/-!
# Remotes that do as they are told

The simulated remotes have in common that they take in every report, and that what they send waits
until the host reads it. They differ in what a report does to them, and in what they are made of.
-/

namespace UniversalRemote

/-- A remote that carries out each report written to it, and hands out what it has sent in its order.
What it has sent is `unread` of its state; `leave` puts what is left of that back. -/
def Device.obeying (obey : σ → Report → σ) (unread : σ → List Report)
    (leave : σ → List Report → σ) : Device σ where
  write report s := (.ok (), obey s report)
  read milliseconds s :=
    match unread s with
    | report :: rest => (.ok report, leave s rest)
    | [] => (.error (.timeout milliseconds), s)

namespace Device

variable {obey : σ → Report → σ} {unread : σ → List Report} {leave : σ → List Report → σ} {s t : σ}

theorem read_obeying {report : Report} {rest : List Report} (h : unread s = report :: rest)
    (timeout : Nat) : (obeying obey unread leave).read timeout s = (.ok report, leave s rest) := by
  simp only [obeying, h]

theorem read_obeying_nil (h : unread s = []) (timeout : Nat) :
    (obeying obey unread leave).read timeout s = (.error (.timeout timeout), s) := by
  simp only [obeying, h]

theorem ending_send (s : σ) (report : Report) :
    (Exchange.send report).ending (obeying obey unread leave) s = (.ok (), obey s report) :=
  Exchange.ending_send report

theorem ending_receive {report : Report} {rest : List Report} (h : unread s = report :: rest)
    (timeout : Nat) :
    (Exchange.receive timeout).ending (obeying obey unread leave) s = (.ok report, leave s rest) := by
  rw [Exchange.ending_receive, read_obeying h]
  rfl

theorem ending_receive_nil (h : unread s = []) (timeout : Nat) :
    (Exchange.receive timeout).ending (obeying obey unread leave) s =
      (.error (.failed (.link (.timeout timeout))), s) := by
  rw [Exchange.ending_receive, read_obeying_nil h]
  rfl

theorem plays_say {report : Report} {dialogue : List Turn}
    (h : (obeying obey unread leave).Plays dialogue (obey s report) t) :
    (obeying obey unread leave).Plays (.say report :: dialogue) s t :=
  ⟨_, rfl, h⟩

theorem plays_hear {report : Report} {rest : List Report} {dialogue : List Turn}
    (hunread : unread s = report :: rest)
    (h : (obeying obey unread leave).Plays dialogue (leave s rest) t) :
    (obeying obey unread leave).Plays (.hear report :: dialogue) s t :=
  ⟨_, read_obeying hunread, h⟩

end Device

end UniversalRemote
