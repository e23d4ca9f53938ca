import UniversalRemote.Proofs.Link.Ending
import UniversalRemote.Proofs.Link.Ensures
/-!
# Runs that are known

Where each answer of a device is known, so is the run: `Exchange.Leads` says how it ends, which
reports it writes and in which state it leaves the device. An exchange behind another one leads on
from there.
-/

namespace UniversalRemote

/-- From one state of a device to another, a program writes these reports and ends with this
result. -/
structure Program.Leads (device : Device σ) (p : Program α) (s : σ) (sent : List Report) (a : α)
    (t : σ) : Prop where
  ending : p.ending device s = (a, t)
  sent : (p.run device s).trace.filterMap Step.written? = sent

variable {device : Device σ} {s t u : σ} {sent more : List Report}

theorem Program.Leads.bind {p : Program α} {f : α → Program β} {a : α} {b : β}
    (h : p.Leads device s sent a t) (hf : (f a).Leads device t more b u) :
    (p.bind f).Leads device s (sent ++ more) b u := by
  have hresult : (p.run device s).result = a := congrArg Prod.fst h.ending
  have hstate : (p.run device s).state = t := congrArg Prod.snd h.ending
  refine ⟨?_, ?_⟩
  · rw [ending_bind, h.ending]
    exact hf.ending
  · rw [run_bind]
    dsimp only
    rw [hresult, hstate, List.filterMap_append, h.sent, hf.sent]

namespace Exchange

abbrev Leads (device : Device σ) (x : Exchange ε α) (s : σ) (sent : List Report)
    (result : Except (Halt ε) α) (t : σ) : Prop :=
  x.run.Leads device s sent result t

theorem leads_pure (a : α) : (pure a : Exchange ε α).Leads device s [] (.ok a) s :=
  ⟨rfl, rfl⟩

theorem leads_throw (halt : Halt ε) :
    (throw halt : Exchange ε α).Leads device s [] (.error halt) s :=
  ⟨rfl, rfl⟩

theorem leads_bind {x : Exchange ε α} {f : α → Exchange ε β} {a : α} {result : Except (Halt ε) β}
    (h : x.Leads device s sent (.ok a) t) (hf : (f a).Leads device t more result u) :
    (x >>= f).Leads device s (sent ++ more) result u :=
  Program.Leads.bind h hf

/-- An exchange that writes nothing, and one behind it. -/
theorem leads_bind_silent {x : Exchange ε α} {f : α → Exchange ε β} {a : α}
    {result : Except (Halt ε) β} (h : x.Leads device s [] (.ok a) t)
    (hf : (f a).Leads device t more result u) : (x >>= f).Leads device s more result u :=
  leads_bind h hf

/-- An exchange that writes one report, and one behind it. -/
theorem leads_bind_cons {x : Exchange ε α} {f : α → Exchange ε β} {report : Report} {a : α}
    {result : Except (Halt ε) β} (h : x.Leads device s [report] (.ok a) t)
    (hf : (f a).Leads device t more result u) : (x >>= f).Leads device s (report :: more) result u :=
  leads_bind h hf

theorem leads_bind_error {x : Exchange ε α} {halt : Halt ε}
    (h : x.Leads device s sent (.error halt) t) (f : α → Exchange ε β) :
    (x >>= f).Leads device s sent (.error halt) t := by
  rw [← List.append_nil sent]
  exact Program.Leads.bind h (leads_throw halt)

theorem leads_progress (stage : Stage) (current total : Nat) :
    (progress stage current total : Exchange ε Unit).Leads device s [] (.ok ()) s :=
  ⟨ending_progress stage current total, rfl⟩

theorem leads_send {report : Report} (h : device.write report s = (.ok (), t)) :
    (send report).Leads device s [report] (.ok ()) t := by
  refine ⟨?_, ?_⟩
  · change (send report).ending device s = _
    rw [ending_send, h]
    rfl
  · change ((Program.write report _).run device s).trace.filterMap Step.written? = _
    rw [Program.run_write, h]
    rfl

theorem leads_receive {timeout : Nat} {report : Report}
    (h : device.read timeout s = (.ok report, t)) :
    (receive timeout).Leads device s [] (.ok report) t := by
  refine ⟨?_, ?_⟩
  · change (receive timeout).ending device s = _
    rw [ending_receive, h]
    rfl
  · change ((Program.read timeout _).run device s).trace.filterMap Step.written? = _
    rw [Program.run_read, h]
    rfl

end Exchange

end UniversalRemote
