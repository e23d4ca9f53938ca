import UniversalRemote.Link.Script
import UniversalRemote.Proofs.Link.Dialogue
import UniversalRemote.Proofs.Link.Outcome
/-!
# Runs on scripted devices

Where no read of a run failed, the script began with the reports that the run received. In the other
direction a script goes along with every dialogue in which those reports are heard. A run receives no
more reports than its script has reads.
-/

namespace UniversalRemote

namespace Step

def answer? : Step → Option (Except LinkError Report)
  | read _ outcome => some outcome
  | _ => none

@[simp] theorem answer?_wrote (report : Report) (outcome : Except LinkError Unit) :
    (wrote report outcome).answer? = none := rfl

@[simp] theorem answer?_read (timeout : Nat) (outcome : Except LinkError Report) :
    (read timeout outcome).answer? = some outcome := rfl

@[simp] theorem answer?_told (event : Event) : (told event).answer? = none := rfl

end Step

theorem filterMap_heard?_turns (trace : List Step) :
    (turns trace).filterMap Turn.heard? = trace.filterMap Step.answer? := by
  rw [turns, List.filterMap_filterMap]
  congr 1
  funext step
  cases step <;> rfl

theorem filterMap_received?_answer? (trace : List Step) :
    trace.filterMap Step.received? = (trace.filterMap Step.answer?).filterMap Except.toOption := by
  rw [List.filterMap_filterMap]
  congr 1
  funext step
  rcases step with ⟨report, outcome⟩ | ⟨timeout, outcome⟩ | event
  · rfl
  · cases outcome <;> rfl
  · rfl

def reportsOf (dialogue : List Turn) : List Report :=
  (dialogue.filterMap Turn.heard?).filterMap Except.toOption

theorem reportsOf_append (first rest : List Turn) :
    reportsOf (first ++ rest) = reportsOf first ++ reportsOf rest := by
  rw [reportsOf, List.filterMap_append, List.filterMap_append]
  rfl

theorem reportsOf_turns (trace : List Step) :
    reportsOf (turns trace) = trace.filterMap Step.received? := by
  rw [reportsOf, filterMap_heard?_turns, filterMap_received?_answer?]

/-- Where nothing failed, what was heard is what was received. -/
theorem Hears.filterMap_received? {trace : List Step} {reports : List Report}
    (h : Hears (turns trace) reports) : trace.filterMap Step.received? = reports := by
  rw [← reportsOf_turns, reportsOf, h.filterMap_heard?, List.filterMap_map]
  exact List.filterMap_some

def receipts (trace : List Step) : Nat :=
  (trace.filterMap Step.received?).length

section Receipts

variable (past : List Step)

@[simp] theorem receipts_append (later : List Step) :
    receipts (past ++ later) = receipts past + receipts later := by
  rw [receipts, List.filterMap_append, List.length_append]
  rfl

@[simp] theorem receipts_read_ok (timeout : Nat) (report : Report) :
    receipts (past ++ [.read timeout (.ok report)]) = receipts past + 1 :=
  receipts_append past _

@[simp] theorem receipts_told (event : Event) : receipts (past ++ [.told event]) = receipts past :=
  receipts_append past _

end Receipts

namespace Script

theorem receipts_read_le (s : Script) (timeout : Nat) :
    receipts [.read timeout (device.read timeout s).1] + (device.read timeout s).2.reads.length ≤
      s.reads.length := by
  change receipts [.read timeout (read timeout s).1] + (read timeout s).2.reads.length ≤ _
  unfold read
  split
  · rename_i report rest hreads
    rw [hreads, List.length_cons]
    exact Nat.le_of_eq (Nat.add_comm 1 rest.length)
  · rename_i rest hreads
    rw [hreads, List.length_cons]
    exact Nat.le_trans (Nat.le_of_eq (Nat.zero_add _)) (Nat.le_succ _)
  · rename_i cause rest hreads
    rw [hreads, List.length_cons]
    exact Nat.le_trans (Nat.le_of_eq (Nat.zero_add _)) (Nat.le_succ _)
  · exact Nat.le_of_eq (Nat.zero_add _)

/-- A run receives no more reports than its script has reads. -/
theorem receipts_run_le (p : Program α) (s : Script) :
    receipts (p.run device s).trace + (p.run device s).state.reads.length ≤ s.reads.length := by
  induction p generalizing s with
  | done result => simp [Program.run, Program.runFrom, receipts]
  | write report next ih =>
    rw [Program.run_write]
    exact ih _ (write report s).2
  | notify event next ih =>
    rw [Program.run_notify]
    exact ih s
  | read timeout next ih =>
    rw [Program.run_read]
    have hread := receipts_read_le s timeout
    generalize device.read timeout s = answer at hread
    obtain ⟨outcome, t⟩ := answer
    have hrest := ih outcome t
    have hsplit := receipts_append [.read timeout outcome] ((next outcome).run device t).trace
    rw [List.singleton_append] at hsplit
    dsimp only at hread ⊢
    omega

/-- The reads of a script that a run used up are the reports that it received, if no read failed. -/
theorem reads_of_run (p : Program α) (s : Script) {reports : List Report}
    (h : (p.run device s).trace.filterMap Step.answer? = reports.map .ok) :
    s.reads = reports.map .report ++ (p.run device s).state.reads := by
  induction p generalizing s reports with
  | done result =>
    have hnil : reports = [] := by simpa [Program.run, Program.runFrom] using h
    rw [hnil]
    rfl
  | write report next ih =>
    rw [Program.run_write] at h ⊢
    exact ih _ (write report s).2 h
  | notify event next ih =>
    rw [Program.run_notify] at h ⊢
    exact ih s h
  | read timeout next ih =>
    rw [Program.run_read] at h ⊢
    obtain ⟨report, rest, rfl, hreport, hrest⟩ : ∃ report rest, reports = report :: rest ∧
        (device.read timeout s).1 = .ok report ∧
        ((next (device.read timeout s).1).run device (device.read timeout s).2).trace.filterMap
          Step.answer? = rest.map .ok := by
      cases reports with
      | nil => exact absurd h (List.cons_ne_nil _ _)
      | cons report rest =>
        have hcons := List.cons.inj h
        exact ⟨report, rest, rfl, hcons.1, hcons.2⟩
    have hreads : s.reads = .report report :: (device.read timeout s).2.reads := by
      change (read timeout s).1 = _ at hreport
      change s.reads = _ :: (read timeout s).2.reads
      unfold read at hreport ⊢
      split at hreport <;> simp_all
    rw [hreads, List.map_cons, List.cons_append]
    exact congrArg _ (ih _ _ hrest)

/-- A script that fails no write goes along with a dialogue if it begins with what is heard. -/
theorem plays_of_hears {dialogue : List Turn} {reports : List Report} (h : Hears dialogue reports)
    {s : Script} {rest : List ScriptedRead} (hreads : s.reads = reports.map .report ++ rest)
    (hwrites : ∀ n, s.failures n = none) : ∃ t, t.reads = rest ∧ device.Plays dialogue s t := by
  induction dialogue generalizing s reports with
  | nil =>
    obtain rfl : reports = [] := h
    exact ⟨s, hreads, rfl⟩
  | cons turn dialogue ih =>
    cases turn with
    | wrote report outcome =>
      obtain ⟨rfl, hlater⟩ := h
      obtain ⟨t, ht, hplays⟩ := ih hlater (s := { s with writes := s.writes + 1 }) hreads hwrites
      refine ⟨t, ht, _, ?_, hplays⟩
      simp only [device, write, hwrites]
    | read outcome =>
      obtain ⟨report, later, rfl, rfl, hlater⟩ := h
      obtain ⟨t, ht, hplays⟩ := ih hlater (s := { s with reads := later.map .report ++ rest }) rfl
        hwrites
      refine ⟨t, ht, _, fun timeout => ?_, hplays⟩
      simp only [device, read, hreads, List.map_cons, List.cons_append]

theorem reads_of_hears {p : Program α} {s : Script} {reports : List Report}
    (h : Hears (turns (p.run device s).trace) reports) :
    s.reads = reports.map .report ++ (p.run device s).state.reads := by
  have hanswers := h.filterMap_heard?
  rw [filterMap_heard?_turns] at hanswers
  exact reads_of_run p s hanswers

/-- An exchange that takes a dialogue has its answer from a script that begins with what is heard. -/
theorem result_of_hears {x : Exchange ε α} {dialogue : List Turn} {a : α}
    (h : x.Yields dialogue a) {reports : List Report} (hheard : Hears dialogue reports) {s : Script}
    {rest : List ScriptedRead} (hreads : s.reads = reports.map .report ++ rest)
    (hwrites : ∀ n, s.failures n = none) : (x.run.run device s).result = .ok a := by
  obtain ⟨t, -, hplays⟩ := plays_of_hears hheard hreads hwrites
  exact congrArg Prod.fst (h.ending hplays)

end Script

end UniversalRemote
