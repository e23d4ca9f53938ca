import UniversalRemote.Proofs.Classic.Discipline
import UniversalRemote.Proofs.Flash.Tiling
import UniversalRemote.Proofs.Link.Scripted
/-!
# Erasing sectors one by one

Each sector of a range is erased by a command of its own, and the next command is written when the
remote has answered. The host does not look into the answer: any report that is not empty counts
(`eraseFlash_answered`), also one that is not a response that the remote is done
(`eraseFlash_despite_refusal`). So the sectors were erased on condition that the remote sends no
other answers.
-/

namespace UniversalRemote

namespace Classic

open Exchange

/-- How the erasure of sectors can go, turn by turn, and what comes of it. -/
inductive Erasing : List Sector → List Turn → Except (Halt RemoteError) Unit → Prop
  | finished : Erasing [] [] (.ok ())
  | unwritten (sector : Sector) (rest : List Sector) (cause : LinkError) :
    Erasing (sector :: rest) [.wrote (erasing sector.first) (.error cause)]
      (.error (.failed (.link cause)))
  | unanswered (sector : Sector) (rest : List Sector) (cause : LinkError) :
    Erasing (sector :: rest) [.say (erasing sector.first), .read (.error cause)]
      (.error (.failed (.link cause)))
  | empty (sector : Sector) (rest : List Sector) :
    Erasing (sector :: rest) [.say (erasing sector.first), .hear []]
      (.error (.failed (.protocol (.shortPacket 1 0))))
  | answered (sector : Sector) {rest : List Sector} {answer : Report} {later : List Turn}
    {result : Except (Halt RemoteError) Unit} (hanswer : answer ≠ [])
    (hrest : Erasing rest later result) :
    Erasing (sector :: rest) (.say (erasing sector.first) :: .hear answer :: later) result

theorem erasing_of_takes {total : Nat} {sectors : List Sector} {erased : Nat}
    {dialogue : List Turn} {result : Except (Halt RemoteError) Unit}
    (h : (eraseSectors total sectors erased).run.Takes dialogue result) :
    Erasing sectors dialogue result := by
  induction sectors generalizing erased dialogue with
  | nil =>
    obtain ⟨rfl, rfl⟩ := h
    exact .finished
  | cons sector rest ih =>
    rw [eraseSectors, eraseCommand_eq] at h
    obtain ⟨cause | _, _, rfl, hread⟩ := h
    · obtain ⟨rfl, rfl⟩ := hread
      exact .unwritten sector rest cause
    obtain ⟨cause | answer, _, rfl, hrest⟩ := hread
    · obtain ⟨rfl, rfl⟩ := hrest
      exact .unanswered sector rest cause
    cases answer with
    | nil =>
      obtain ⟨rfl, rfl⟩ := hrest
      exact .empty sector rest
    | cons code body => exact .answered sector (List.cons_ne_nil code body) (ih hrest)

/-- Sectors are erased one by one, each by a command that is answered. -/
def erasures (sectors : List Sector) (answers : List Report) : List Turn :=
  (sectors.zip answers).flatMap fun (sector, answer) =>
    [.say (erasing sector.first), .hear answer]

theorem erasures_cons (sector : Sector) (sectors : List Sector) (answer : Report)
    (answers : List Report) :
    erasures (sector :: sectors) (answer :: answers) =
      .say (erasing sector.first) :: .hear answer :: erasures sectors answers := rfl

namespace Erasing

variable {sectors : List Sector} {dialogue : List Turn} {result : Except (Halt RemoteError) Unit}

theorem exists_answers (h : Erasing sectors dialogue result) (hok : result = .ok ()) :
    ∃ answers, answers.length = sectors.length ∧ (∀ answer ∈ answers, answer ≠ []) ∧
      dialogue = erasures sectors answers := by
  induction h with
  | finished => exact ⟨[], rfl, nofun, rfl⟩
  | unwritten | unanswered | empty => cases hok
  | @answered sector rest answer later result hanswer hrest ih =>
    obtain ⟨answers, hlength, hall, rfl⟩ := ih hok
    refine ⟨answer :: answers, congrArg (· + 1) hlength, fun other hother => ?_, rfl⟩
    rcases List.mem_cons.1 hother with rfl | hother
    · exact hanswer
    · exact hall other hother

theorem ok_of_answers {answers : List Report} (h : Erasing sectors (erasures sectors answers) result)
    (hlength : answers.length = sectors.length) (hall : ∀ answer ∈ answers, answer ≠ []) :
    result = .ok () := by
  induction sectors generalizing answers with
  | nil => cases h; rfl
  | cons sector rest ih =>
    obtain ⟨answer, answers, rfl⟩ := List.exists_cons_of_length_eq_add_one hlength
    rw [erasures_cons] at h
    rw [List.forall_mem_cons] at hall
    generalize hlater : erasures rest answers = later at h
    cases h with
    | empty => exact absurd rfl hall.1
    | answered _ hanswer hrest =>
      rw [← hlater] at hrest
      exact ih hrest (Nat.succ.inj hlength) hall.2

/-- The commands are those of the sectors, in their order, as far as the erasure comes. -/
theorem said_prefix (h : Erasing sectors dialogue result) :
    dialogue.filterMap Turn.said? <+: sectors.map (erasing ·.first) := by
  induction h with
  | finished => exact List.nil_prefix
  | unwritten sector rest | unanswered sector rest | empty sector rest =>
    exact List.cons_prefix_cons.2 ⟨rfl, List.nil_prefix⟩
  | answered sector hanswer hrest ih => exact List.cons_prefix_cons.2 ⟨rfl, ih⟩

/-- An empty report is the last that the host reads. -/
theorem last_of_empty (h : Erasing sectors dialogue result) {before after : List Turn}
    (hdialogue : dialogue = before ++ .hear [] :: after) :
    after = [] ∧ result = .error (.failed (.protocol (.shortPacket 1 0))) := by
  induction h generalizing before with
  | finished => simp at hdialogue
  | unwritten sector rest cause => rcases before with _ | ⟨turn, before⟩ <;> simp at hdialogue
  | unanswered sector rest cause =>
    rcases before with _ | ⟨turn, _ | ⟨turn, before⟩⟩ <;> simp at hdialogue
  | empty sector rest =>
    rcases before with _ | ⟨turn, _ | ⟨turn, before⟩⟩
    · simp at hdialogue
    · exact ⟨((List.cons.inj (List.cons.inj hdialogue).2).2).symm, rfl⟩
    · simp at hdialogue
  | answered sector hanswer hrest ih =>
    rcases before with _ | ⟨turn, _ | ⟨turn, before⟩⟩
    · simp at hdialogue
    · cases hdialogue
      exact absurd rfl hanswer
    · cases hdialogue
      exact ih rfl

end Erasing

theorem heard_erasures {sectors : List Sector} {answers : List Report}
    (hlength : answers.length = sectors.length) :
    (erasures sectors answers).filterMap Turn.heard? = answers.map .ok := by
  induction sectors generalizing answers with
  | nil => rw [List.eq_nil_of_length_eq_zero hlength]; rfl
  | cons sector rest ih =>
    obtain ⟨answer, answers, rfl⟩ := List.exists_cons_of_length_eq_add_one hlength
    exact congrArg (_ :: ·) (ih (Nat.succ.inj hlength))

structure Erasure (sectors : List Sector) (run : Run σ (Except (Halt RemoteError) Unit)) : Prop where
  /-- It ends well where each sector in turn is erased by a command that is answered. The host takes
  any report for an answer but an empty one. -/
  ok_iff : run.result = .ok () ↔ ∃ answers, answers.length = sectors.length ∧
    (∀ answer ∈ answers, answer ≠ []) ∧ turns run.trace = erasures sectors answers
  /-- Whatever happens, the commands are those of the sectors, in their order. -/
  in_order : run.trace.filterMap Step.written? <+: sectors.map (erasing ·.first)
  /-- Behind an empty report nothing is erased. -/
  empty : ∀ before after, turns run.trace = before ++ .hear [] :: after →
    after = [] ∧ run.result = .error (.failed (.protocol (.shortPacket 1 0)))
  /-- Where the remote sends no other answer than that it is done, it is done with each sector. -/
  acknowledged : (∀ report ∈ run.trace.filterMap Step.received?, report ≠ [] → Commands done report) →
    run.result = .ok () → ∃ answers, answers.length = sectors.length ∧
      (∀ answer ∈ answers, Commands done answer) ∧ turns run.trace = erasures sectors answers

theorem Erasing.erasure {sectors : List Sector} {run : Run σ (Except (Halt RemoteError) Unit)}
    (h : Erasing sectors (turns run.trace) run.result) : Erasure sectors run where
  ok_iff := by
    refine ⟨h.exists_answers, ?_⟩
    rintro ⟨answers, hlength, hall, hturns⟩
    rw [hturns] at h
    exact h.ok_of_answers hlength hall
  in_order := filterMap_said?_turns run.trace ▸ h.said_prefix
  empty before after hturns := h.last_of_empty hturns
  acknowledged := by
    intro hdone hok
    obtain ⟨answers, hlength, hall, hturns⟩ := h.exists_answers hok
    refine ⟨answers, hlength, fun answer hanswer => hdone answer ?_ (hall answer hanswer), hturns⟩
    rw [← reportsOf_turns, hturns, reportsOf, heard_erasures hlength, List.filterMap_map]
    exact List.mem_filterMap.2 ⟨answer, hanswer, rfl⟩

/-- The sectors of a range are erased in ascending order, each by a command that is answered before
the next is written. The answers may be any reports that are not empty; where the remote sends none
but that it is done, it was done with each sector. -/
theorem eraseFlash_answered (address length : UInt32) (layout : SectorLayout) (device : Device σ)
    (state : σ) :
    let run := (eraseFlash address length layout).run.run device state
    (∀ sectors, layout.overlapping address length = some sectors → Erasure sectors run ∧
      (layout.boundaries.Pairwise (· < ·) → sectors.Pairwise (·.first < ·.first))) ∧
    (layout.overlapping address length = none → run.result = .error .overflow ∧ run.trace = []) := by
  intro run
  constructor
  · intro sectors hsectors
    have htakes : (eraseSectors sectors.length sectors 0).run.Takes (turns run.trace) run.result := by
      have heq : eraseFlash address length layout = eraseSectors sectors.length sectors 0 := by
        rw [eraseFlash, hsectors]
        rfl
      rw [← heq]
      exact Program.takes_run _ device state
    exact ⟨(erasing_of_takes htakes).erasure,
      fun hascending => SectorLayout.overlapping_ascending hascending hsectors⟩
  · intro hnone
    have heq : eraseFlash address length layout = overflow := by
      rw [eraseFlash, hnone]
      rfl
    have hrun : run = (overflow : Exchange RemoteError Unit).run.run device state := by rw [← heq]
    rw [hrun]
    exact ⟨rfl, rfl⟩

/-- Two sectors, of which the remote is done with each. -/
theorem eraseFlash_answered_two_sectors :
    let layout : SectorLayout := ⟨0, [0, 0x10000, 0x20000]⟩
    let sectors : List Sector := [⟨0, 0x10000⟩, ⟨0x10000, 0x20000⟩]
    let script : Script := { reads := [.report [0xF0], .report [0xF1, 0xD0]] }
    let run := (eraseFlash 0 0x20000 layout).run.run Script.device script
    layout.overlapping 0 0x20000 = some sectors ∧ run.result = .ok () ∧
      ∃ answers, answers.length = 2 ∧ (∀ answer ∈ answers, Commands done answer) ∧
        turns run.trace = erasures sectors answers := by
  have hsectors : SectorLayout.overlapping ⟨0, [0, 0x10000, 0x20000]⟩ 0 0x20000 =
      some [⟨0, 0x10000⟩, ⟨0x10000, 0x20000⟩] := rfl
  have herasure := ((eraseFlash_answered 0 0x20000 ⟨0, [0, 0x10000, 0x20000]⟩ Script.device
    { reads := [.report [0xF0], .report [0xF1, 0xD0]] }).1 _ hsectors).1
  exact ⟨hsectors, rfl, herasure.acknowledged (by decide) rfl⟩

/-- A remote that answers the command for the first sector, but not that it is done: the host takes
the sector for erased, and goes on with the next. -/
theorem eraseFlash_despite_refusal :
    let layout : SectorLayout := ⟨0, [0, 0x10000, 0x20000]⟩
    let run := (eraseFlash 0 0x20000 layout).run.run Script.device
      { reads := [.report [0x00], .report [0xF0]] }
    layout.overlapping 0 0x20000 = some [⟨0, 0x10000⟩, ⟨0x10000, 0x20000⟩] ∧
      run.result = .ok () ∧ ¬ Commands done [0x00] ∧
      turns run.trace = [.say [0xD3, 0x00, 0x00, 0x00], .hear [0x00],
        .say [0xD3, 0x01, 0x00, 0x00], .hear [0xF0]] :=
  ⟨by decide, rfl, by decide, rfl⟩

end Classic

end UniversalRemote
