import UniversalRemote.Proofs.Link.Ending
/-!
# Dialogues

A dialogue is what goes over a link, turn by turn, with what came of each write and read. A program
takes some dialogues and not others (`Program.Takes`), and a device plays some of them
(`Device.Plays`): where both go along with one, the run is known (`Program.ending_of_takes`). What a
program takes is read off the way in which it is put together, in both directions.
-/

namespace UniversalRemote

/-- A write or a read, and what came of it. -/
inductive Turn where
  | wrote (report : Report) (outcome : Except LinkError Unit)
  | read (outcome : Except LinkError Report)

namespace Turn

abbrev say (report : Report) : Turn :=
  .wrote report (.ok ())

abbrev hear (report : Report) : Turn :=
  .read (.ok report)

def said? : Turn → Option Report
  | wrote report _ => some report
  | read _ => none

def heard? : Turn → Option (Except LinkError Report)
  | wrote _ _ => none
  | read outcome => some outcome

@[simp] theorem said?_wrote (report : Report) (outcome : Except LinkError Unit) :
    (wrote report outcome).said? = some report := rfl

@[simp] theorem said?_read (outcome : Except LinkError Report) : (read outcome).said? = none := rfl

@[simp] theorem heard?_wrote (report : Report) (outcome : Except LinkError Unit) :
    (wrote report outcome).heard? = none := rfl

@[simp] theorem heard?_read (outcome : Except LinkError Report) :
    (read outcome).heard? = some outcome := rfl

end Turn

/-- The turn that a step is; what an observer is told is none. -/
def Step.turn? : Step → Option Turn
  | wrote report outcome => some (.wrote report outcome)
  | read _ outcome => some (.read outcome)
  | told _ => none

def turns (trace : List Step) : List Turn :=
  trace.filterMap Step.turn?

theorem filterMap_said?_turns (trace : List Step) :
    (turns trace).filterMap Turn.said? = trace.filterMap Step.written? := by
  rw [turns, List.filterMap_filterMap]
  congr 1
  funext step
  cases step <;> rfl

/-- Nothing fails in a dialogue, and these reports are read in it. -/
def Hears : List Turn → List Report → Prop
  | [], reports => reports = []
  | .wrote _ outcome :: rest, reports => outcome = .ok () ∧ Hears rest reports
  | .read outcome :: rest, reports =>
    ∃ report later, outcome = .ok report ∧ reports = report :: later ∧ Hears rest later

theorem Hears.append {first rest : List Turn} {reports later : List Report}
    (h : Hears first reports) (hrest : Hears rest later) :
    Hears (first ++ rest) (reports ++ later) := by
  induction first generalizing reports with
  | nil =>
    obtain rfl : reports = [] := h
    exact hrest
  | cons turn first ih =>
    cases turn with
    | wrote report outcome => exact ⟨h.1, ih h.2⟩
    | read outcome =>
      obtain ⟨report, others, rfl, rfl, hothers⟩ := h
      exact ⟨report, others ++ later, rfl, rfl, ih hothers⟩

theorem Hears.filterMap_heard? {dialogue : List Turn} {reports : List Report}
    (h : Hears dialogue reports) : dialogue.filterMap Turn.heard? = reports.map .ok := by
  induction dialogue generalizing reports with
  | nil =>
    obtain rfl : reports = [] := h
    rfl
  | cons turn dialogue ih =>
    cases turn with
    | wrote report outcome => exact ih h.2
    | read outcome =>
      obtain ⟨report, later, rfl, rfl, hlater⟩ := h
      rw [List.filterMap_cons_some (Turn.heard?_read _), ih hlater, List.map_cons]

/-! ## Devices -/

namespace Device

variable {device : Device σ}

/-- A device goes along with a dialogue, from one state to another. -/
def Plays (device : Device σ) : List Turn → σ → σ → Prop
  | [], s, t => s = t
  | .wrote report outcome :: rest, s, t =>
    ∃ u, device.write report s = (outcome, u) ∧ device.Plays rest u t
  | .read outcome :: rest, s, t =>
    ∃ u, (∀ timeout, device.read timeout s = (outcome, u)) ∧ device.Plays rest u t

theorem Plays.append {first rest : List Turn} {s t u : σ} (h : device.Plays first s u)
    (hrest : device.Plays rest u t) : device.Plays (first ++ rest) s t := by
  induction first generalizing s with
  | nil =>
    obtain rfl : s = u := h
    exact hrest
  | cons turn first ih =>
    cases turn with
    | wrote report outcome =>
      obtain ⟨v, hwrite, hfirst⟩ := h
      exact ⟨v, hwrite, ih hfirst⟩
    | read outcome =>
      obtain ⟨v, hread, hfirst⟩ := h
      exact ⟨v, hread, ih hfirst⟩

end Device

/-! ## Programs -/

namespace Program

variable {p : Program α}

/-- Answered as a dialogue says, a program takes just these turns and ends with a result. -/
def Takes : Program α → List Turn → α → Prop
  | .done b, dialogue, a => dialogue = [] ∧ b = a
  | .write report next, dialogue, a =>
    ∃ outcome rest, dialogue = .wrote report outcome :: rest ∧ (next outcome).Takes rest a
  | .read _ next, dialogue, a =>
    ∃ outcome rest, dialogue = .read outcome :: rest ∧ (next outcome).Takes rest a
  | .notify _ next, dialogue, a => next.Takes dialogue a

/-- The run of a program on any device is a dialogue that it takes. -/
theorem takes_run (p : Program α) (device : Device σ) (state : σ) :
    p.Takes (turns (p.run device state).trace) (p.run device state).result := by
  induction p generalizing state with
  | done a => exact ⟨rfl, rfl⟩
  | write report next ih =>
    rw [run_write]
    exact ⟨_, _, rfl, ih _ _⟩
  | read timeout next ih =>
    rw [run_read]
    exact ⟨_, _, rfl, ih _ _⟩
  | notify event next ih =>
    rw [run_notify]
    exact ih state

/-- Where a program takes a dialogue that a device plays, this is how it ends. -/
theorem ending_of_takes {device : Device σ} {dialogue : List Turn} {a : α} {s t : σ}
    (h : p.Takes dialogue a) (hplays : device.Plays dialogue s t) :
    p.ending device s = (a, t) := by
  induction p generalizing s dialogue with
  | done b =>
    obtain ⟨rfl, rfl⟩ := h
    obtain rfl : s = t := hplays
    rfl
  | write report next ih =>
    obtain ⟨outcome, rest, rfl, hnext⟩ := h
    obtain ⟨u, hwrite, hrest⟩ := hplays
    rw [ending_write, hwrite]
    exact ih outcome hnext hrest
  | read timeout next ih =>
    obtain ⟨outcome, rest, rfl, hnext⟩ := h
    obtain ⟨u, hread, hrest⟩ := hplays
    rw [ending_read, hread timeout]
    exact ih outcome hnext hrest
  | notify event next ih =>
    rw [ending_notify]
    exact ih h hplays

theorem takes_bind {f : α → Program β} {dialogue : List Turn} {b : β} :
    (p.bind f).Takes dialogue b ↔
      ∃ a first rest, dialogue = first ++ rest ∧ p.Takes first a ∧ (f a).Takes rest b := by
  induction p generalizing dialogue with
  | done a =>
    constructor
    · exact fun h => ⟨a, [], dialogue, rfl, ⟨rfl, rfl⟩, h⟩
    · rintro ⟨_, _, _, rfl, ⟨rfl, rfl⟩, h⟩
      exact h
  | write report next ih =>
    constructor
    · rintro ⟨outcome, rest, rfl, h⟩
      obtain ⟨a, first, rest, rfl, hfirst, hrest⟩ := (ih outcome).1 h
      exact ⟨a, .wrote report outcome :: first, rest, rfl, ⟨outcome, first, rfl, hfirst⟩, hrest⟩
    · rintro ⟨a, _, rest, rfl, ⟨outcome, first, rfl, hfirst⟩, hrest⟩
      exact ⟨outcome, first ++ rest, rfl, (ih outcome).2 ⟨a, first, rest, rfl, hfirst, hrest⟩⟩
  | read timeout next ih =>
    constructor
    · rintro ⟨outcome, rest, rfl, h⟩
      obtain ⟨a, first, rest, rfl, hfirst, hrest⟩ := (ih outcome).1 h
      exact ⟨a, .read outcome :: first, rest, rfl, ⟨outcome, first, rfl, hfirst⟩, hrest⟩
    · rintro ⟨a, _, rest, rfl, ⟨outcome, first, rfl, hfirst⟩, hrest⟩
      exact ⟨outcome, first ++ rest, rfl, (ih outcome).2 ⟨a, first, rest, rfl, hfirst, hrest⟩⟩
  | notify event next ih => exact ih

/-- A program takes a dialogue to one end only. -/
theorem Takes.unique {p : Program α} {dialogue : List Turn} {a b : α} (ha : p.Takes dialogue a)
    (hb : p.Takes dialogue b) : a = b := by
  induction p generalizing dialogue with
  | done c => exact ha.2.symm.trans hb.2
  | write report next ih =>
    obtain ⟨outcome, rest, rfl, ha⟩ := ha
    obtain ⟨_, _, heq, hb⟩ := hb
    cases heq
    exact ih outcome ha hb
  | read timeout next ih =>
    obtain ⟨outcome, rest, rfl, ha⟩ := ha
    obtain ⟨_, _, heq, hb⟩ := hb
    cases heq
    exact ih outcome ha hb
  | notify event next ih => exact ih ha hb

end Program

/-! ## Exchanges -/

namespace Exchange

variable {dialogue : List Turn}

/-- An exchange takes a dialogue and has an answer. -/
def Yields (x : Exchange ε α) (dialogue : List Turn) (a : α) : Prop :=
  x.run.Takes dialogue (.ok a)

theorem Yields.ending {x : Exchange ε α} {a : α} (h : x.Yields dialogue a) {device : Device σ}
    {s t : σ} (hplays : device.Plays dialogue s t) : x.ending device s = (.ok a, t) :=
  Program.ending_of_takes h hplays

theorem yields_pure {a b : α} :
    (pure a : Exchange ε α).Yields dialogue b ↔ dialogue = [] ∧ a = b := by
  constructor
  · rintro ⟨hnil, hresult⟩
    exact ⟨hnil, Except.ok.inj hresult⟩
  · rintro ⟨rfl, rfl⟩
    exact ⟨rfl, rfl⟩

theorem not_yields_throw {halt : Halt ε} {a : α} :
    ¬ (throw halt : Exchange ε α).Yields dialogue a :=
  fun h => nomatch h.2

theorem yields_bind {x : Exchange ε α} {f : α → Exchange ε β} {b : β} :
    (x >>= f).Yields dialogue b ↔
      ∃ a first rest, dialogue = first ++ rest ∧ x.Yields first a ∧ (f a).Yields rest b := by
  refine Program.takes_bind.trans ?_
  constructor
  · rintro ⟨_ | a, first, rest, heq, hfirst, hrest⟩
    · exact nomatch hrest.2
    · exact ⟨a, first, rest, heq, hfirst, hrest⟩
  · rintro ⟨a, first, rest, heq, hfirst, hrest⟩
    exact ⟨.ok a, first, rest, heq, hfirst, hrest⟩

theorem takes_bind {x : Exchange ε α} {f : α → Exchange ε β} {result : Except (Halt ε) β} :
    (x >>= f).run.Takes dialogue result ↔
      (∃ halt, x.run.Takes dialogue (.error halt) ∧ result = .error halt) ∨
      ∃ a first rest, dialogue = first ++ rest ∧ x.Yields first a ∧ (f a).run.Takes rest result := by
  refine Program.takes_bind.trans ?_
  constructor
  · rintro ⟨halt | a, first, rest, rfl, hfirst, hrest⟩
    · obtain ⟨rfl, rfl⟩ := hrest
      rw [List.append_nil]
      exact .inl ⟨halt, hfirst, rfl⟩
    · exact .inr ⟨a, first, rest, rfl, hfirst, hrest⟩
  · rintro (⟨halt, hx, rfl⟩ | ⟨a, first, rest, rfl, hfirst, hrest⟩)
    · exact ⟨.error halt, dialogue, [], (List.append_nil _).symm, hx, rfl, rfl⟩
    · exact ⟨.ok a, first, rest, rfl, hfirst, hrest⟩

theorem yields_send {report : Report} {u : Unit} :
    (send report).Yields dialogue u ↔ dialogue = [.say report] := by
  constructor
  · rintro ⟨_ | _, rest, rfl, hnil, hresult⟩
    · cases hresult
    · rw [hnil]
  · rintro rfl
    exact ⟨.ok (), [], rfl, rfl, rfl⟩

theorem yields_receive {timeout : Nat} {report : Report} :
    (receive timeout).Yields dialogue report ↔ dialogue = [.hear report] := by
  constructor
  · rintro ⟨_ | received, rest, rfl, hnil, hresult⟩
    · cases hresult
    · cases hresult
      rw [hnil]
  · rintro rfl
    exact ⟨.ok report, [], rfl, rfl, rfl⟩

theorem yields_check {answer : Except ProtocolError α} {a : α} :
    (check answer).Yields dialogue a ↔ dialogue = [] ∧ answer = .ok a := by
  cases answer with
  | ok b => exact yields_pure.trans (and_congr_right fun _ => ⟨congrArg _, Except.ok.inj⟩)
  | error cause => exact ⟨fun h => absurd h not_yields_throw, fun h => nomatch h.2⟩

theorem yields_attempt_ok {x : Exchange ε α} {a : α} :
    (attempt x : Exchange δ (Except ε α)).Yields dialogue (.ok a) ↔ x.Yields dialogue a := by
  refine Program.takes_bind.trans ?_
  constructor
  · rintro ⟨(_ | _ | _) | b, before, behind, rfl, hbefore, rfl, hresult⟩
    all_goals cases hresult
    rw [List.append_nil]
    exact hbefore
  · intro h
    exact ⟨.ok a, dialogue, [], (List.append_nil _).symm, h, rfl, rfl⟩

theorem yields_first {outcome : Except ε α} {closed : Except ε β} {a : α} :
    (first outcome closed).Yields dialogue a ↔
      dialogue = [] ∧ outcome = .ok a ∧ ∃ b, closed = .ok b := by
  rcases outcome with cause | b
  · exact ⟨fun h => absurd h not_yields_throw, fun h => nomatch h.2.1⟩
  rcases closed with cause | c
  · exact ⟨fun h => absurd h not_yields_throw, fun h => nomatch h.2.2.choose_spec⟩
  · refine yields_pure.trans (and_congr_right fun _ => ?_)
    exact ⟨fun h => ⟨congrArg _ h, c, rfl⟩, fun h => Except.ok.inj h.1⟩

/-! ### What answers are like -/

/-- Each answer that an exchange can have is as stated. -/
def Gives (x : Exchange ε α) (post : α → Prop) : Prop :=
  ∀ dialogue a, x.Yields dialogue a → post a

theorem gives_true (x : Exchange ε α) : x.Gives fun _ => True :=
  fun _ _ _ => trivial

theorem gives_pure {post : α → Prop} {a : α} (h : post a) : (pure a : Exchange ε α).Gives post := by
  intro dialogue b hyields
  obtain ⟨-, rfl⟩ := yields_pure.1 hyields
  exact h

theorem gives_throw {post : α → Prop} (halt : Halt ε) :
    (throw halt : Exchange ε α).Gives post :=
  fun _ _ hyields => absurd hyields not_yields_throw

theorem Gives.bind {x : Exchange ε α} {f : α → Exchange ε β} {middle : α → Prop}
    {post : β → Prop} (h : x.Gives middle) (hf : ∀ a, middle a → (f a).Gives post) :
    (x >>= f).Gives post := by
  intro dialogue b hyields
  obtain ⟨a, first, rest, -, hx, hrest⟩ := yields_bind.1 hyields
  exact hf a (h first a hx) rest b hrest

theorem gives_check {answer : Except ProtocolError α} {post : α → Prop}
    (h : ∀ a, answer = .ok a → post a) : (check answer).Gives post :=
  fun _ a hyields => h a (yields_check.1 hyields).2

/-! ### Numbers of turns -/

/-- An exchange takes no more turns than these. -/
def AtMost (count : Nat) (x : Exchange ε α) : Prop :=
  ∀ dialogue result, x.run.Takes dialogue result → dialogue.length ≤ count

theorem AtMost.bind {count more : Nat} {x : Exchange ε α} {f : α → Exchange ε β}
    (h : x.AtMost count) (hf : ∀ a, (f a).AtMost more) : (x >>= f).AtMost (more + count) := by
  intro dialogue result htakes
  rcases takes_bind.1 htakes with ⟨halt, hx, -⟩ | ⟨a, first, rest, rfl, hx, hrest⟩
  · exact Nat.le_add_left_of_le (h _ _ hx)
  · rw [List.length_append, Nat.add_comm]
    exact Nat.add_le_add (hf a _ _ hrest) (h _ _ hx)

theorem atMost_pure (a : α) : (pure a : Exchange ε α).AtMost 0 := by
  rintro dialogue result ⟨rfl, -⟩
  exact Nat.le_refl 0

theorem atMost_throw (halt : Halt ε) : (throw halt : Exchange ε α).AtMost 0 := by
  rintro dialogue result ⟨rfl, -⟩
  exact Nat.le_refl 0

theorem atMost_send (report : Report) : (send report).AtMost 1 := by
  rintro dialogue result ⟨outcome, rest, rfl, rfl, -⟩
  exact Nat.le_refl 1

theorem atMost_receive (timeout : Nat) : (receive timeout).AtMost 1 := by
  rintro dialogue result ⟨outcome, rest, rfl, rfl, -⟩
  exact Nat.le_refl 1

theorem atMost_attempt {count : Nat} {x : Exchange ε α} (h : x.AtMost count) :
    (attempt x : Exchange δ (Except ε α)).AtMost count := by
  intro dialogue result htakes
  obtain ⟨own, first, rest, rfl, hfirst, hrest⟩ := Program.takes_bind.1 htakes
  obtain rfl : rest = [] := by
    rcases own with (_ | _ | _) | _
    all_goals exact hrest.1
  rw [List.append_nil]
  exact h _ _ hfirst

end Exchange

end UniversalRemote
