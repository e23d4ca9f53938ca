import Mathlib.Data.List.Induction
import UniversalRemote.Proofs.Z.Closing
/-!
# What a stream remembers

The state of a stream is used in two ways, in any order: it observes packets, and headers are taken
from it. Whatever was done, it remembers just the last packet that it accepted and whether it has
given a header (`Keeps`). Hence the next packet is accepted exactly if it is the one that is due, and
the next header acknowledges what was accepted (`used_stream`).
-/

namespace UniversalRemote.Stream

open Z

inductive Use where
  | observe (packet : Report)
  /-- A header is taken, with flags of the caller's own. -/
  | header (extra : UInt8)

inductive Mark where
  | accepted (packet : Report)
  | refused (packet : Report) (cause : ProtocolError)
  | given (header : StreamHeader)

/-- What comes of a use, and the stream behind it. -/
def use (s : Stream) : Use → Mark × Stream
  | .observe packet =>
    match (observe packet).run.run s with
    | (.ok (), after) => (.accepted packet, after)
    | (.error cause, after) => (.refused packet cause, after)
  | .header extra => (.given (s.header extra).1, (s.header extra).2)

/-- What comes of uses of a fresh stream one after another, and the stream behind them. -/
def used (uses : List Use) : List Mark × Stream :=
  uses.foldl (fun (past, s) u => (past ++ [(s.use u).1], (s.use u).2)) ([], {})

theorem used_concat (uses : List Use) (u : Use) : used (uses ++ [u]) =
    ((used uses).1 ++ [((used uses).2.use u).1], ((used uses).2.use u).2) := by
  rw [used, List.foldl_append]
  rfl

def accepted (past : List Mark) : List Report :=
  past.filterMap fun
    | .accepted packet => some packet
    | _ => none

def given (past : List Mark) : List StreamHeader :=
  past.filterMap fun
    | .given header => some header
    | _ => none

/-- A stream has kept what its history calls for. -/
structure Keeps (past : List Mark) (s : Stream) : Prop where
  due : s.due = (accepted past).getLast?.map nextNumber
  last : ∀ packet, (accepted past).getLast? = some packet →
    s.ack = packet.getD 3 0 ∧ s.consumed = nextNumber packet
  opened : s.opened = true ↔ given past ≠ []

variable {past : List Mark} {s : Stream}

theorem keeps_fresh : Keeps [] {} :=
  ⟨rfl, nofun, by simp [given]⟩

theorem Keeps.accepts (h : Keeps past s) {packet : Report} {after : Stream}
    (hopened : after.opened = s.opened) (hack : after.ack = packet.getD 3 0)
    (hconsumed : after.consumed = nextNumber packet) (hdue : after.due = some (nextNumber packet)) :
    Keeps (past ++ [.accepted packet]) after := by
  have haccepted : accepted (past ++ [.accepted packet]) = accepted past ++ [packet] := by
    simp [accepted]
  have hgiven : given (past ++ [.accepted packet]) = given past := by simp [given]
  constructor
  · rw [hdue, haccepted, List.getLast?_concat]
    rfl
  · rw [haccepted, List.getLast?_concat]
    rintro _ ⟨⟩
    exact ⟨hack, hconsumed⟩
  · rw [hopened, hgiven]
    exact h.opened

theorem Keeps.refuses (h : Keeps past s) (packet : Report) (cause : ProtocolError) :
    Keeps (past ++ [.refused packet cause]) s := by
  have haccepted : accepted (past ++ [.refused packet cause]) = accepted past := by simp [accepted]
  have hgiven : given (past ++ [.refused packet cause]) = given past := by simp [given]
  exact ⟨haccepted ▸ h.due, haccepted ▸ h.last, hgiven ▸ h.opened⟩

theorem Keeps.gives (h : Keeps past s) (extra : UInt8) :
    Keeps (past ++ [.given (s.header extra).1]) (s.header extra).2 := by
  have haccepted : accepted (past ++ [.given (s.header extra).1]) = accepted past := by
    simp [accepted]
  have hgiven : given (past ++ [.given (s.header extra).1]) ≠ [] := by simp [given]
  exact ⟨haccepted ▸ h.due, haccepted ▸ h.last, fun _ => hgiven, fun _ => rfl⟩

/-- A stream accepts a packet that has a header and the number that is due. -/
theorem observe_cases (s : Stream) (packet : Report) :
    (HasHeader packet ∧ (∀ due, s.due = some due → packet.getD 2 0 = due) ∧
      ∃ after, (observe packet).run.run s = (.ok (), after) ∧ Behind s packet after) ∨
    ∃ cause, (observe packet).run.run s = (.error cause, s) ∧
      ¬ (HasHeader packet ∧ ∀ due, s.due = some due → packet.getD 2 0 = due) := by
  rcases absorb_cases s packet with
    ⟨hheader, hnumber, after, habsorb, hopened, hack, hconsumed, hdue⟩ | ⟨cause, habsorb, hcause⟩
  · exact .inl ⟨hheader, hnumber, after, run_observe_of_ok habsorb, hopened, hack, hconsumed,
      hdue.trans (congrArg some hconsumed)⟩
  · refine .inr ⟨cause, run_observe_of_error habsorb, fun ⟨hheader, hnumber⟩ => ?_⟩
    obtain ⟨due, hdue, hne, -⟩ := hcause hheader
    exact hne (hnumber due hdue)

/-- Every use keeps what the history calls for. -/
theorem Keeps.use (h : Keeps past s) (u : Use) : Keeps (past ++ [(s.use u).1]) (s.use u).2 := by
  cases u with
  | observe packet =>
    rw [Stream.use]
    rcases observe_cases s packet with ⟨-, -, after, hrun, hafter⟩ | ⟨cause, hrun, -⟩
    · rw [hrun]
      exact h.accepts hafter.opened hafter.ack hafter.consumed hafter.due
    · rw [hrun]
      exact h.refuses packet cause
  | header extra => exact h.gives extra

theorem keeps_used (uses : List Use) : Keeps (used uses).1 (used uses).2 := by
  induction uses using List.reverseRecOn with
  | nil => exact keeps_fresh
  | append_singleton uses u ih =>
    rw [used_concat]
    exact ih.use u

/-- Behind any uses of a stream, it accepts exactly a packet that has a header and, if it is not the
first one, the number that the last one accepted calls for. A packet that is refused leaves it as it
was. The next header is numbered as that last packet asks for and acknowledges it, and the first
header, no other, answers the opening. -/
theorem used_stream (uses : List Use) :
    let past := (used uses).1
    let s := (used uses).2
    (∀ packet, ((observe packet).run.run s).1 = .ok () ↔ HasHeader packet ∧
      ∀ last, (accepted past).getLast? = some last → packet.getD 2 0 = nextNumber last) ∧
    (∀ packet cause, ((observe packet).run.run s).1 = .error cause →
      ((observe packet).run.run s).2 = s) ∧
    (∀ extra last, (accepted past).getLast? = some last →
      (s.header extra).1.seq = last.getD 3 0 ∧ (s.header extra).1.ack = nextNumber last) ∧
    ∀ extra, (s.header extra).1.flags =
      if given past = [] then ackFlag ||| extra ||| synFlag else ackFlag ||| extra := by
  intro past s
  have h : Keeps past s := keeps_used uses
  have hnumber (packet : Report) : (∀ due, s.due = some due → packet.getD 2 0 = due) ↔
      ∀ last, (accepted past).getLast? = some last → packet.getD 2 0 = nextNumber last := by
    rw [h.due]
    simp
  refine ⟨fun packet => ?_, fun packet cause hcause => ?_, fun extra => h.last, fun extra => ?_⟩
  · rw [← hnumber]
    rcases observe_cases s packet with ⟨hheader, hdue, after, hrun, -⟩ | ⟨cause, hrun, hnot⟩
    · rw [hrun]
      exact iff_of_true rfl ⟨hheader, hdue⟩
    · rw [hrun]
      exact iff_of_false nofun hnot
  · rcases observe_cases s packet with ⟨-, -, after, hrun, -⟩ | ⟨cause, hrun, -⟩
    · rw [hrun] at hcause
      cases hcause
    · rw [hrun]
  · by_cases hgiven : given past = []
    · have hopened : s.opened = false := Bool.eq_false_iff.2 fun hopen => h.opened.1 hopen hgiven
      rw [if_pos hgiven, header, hopened]
      rfl
    · rw [if_neg hgiven, header, h.opened.2 hgiven]
      rfl

/-- A number that wraps around, behind a packet that was refused for its own. -/
theorem used_stream_wraps :
    let uses : List Use := [.observe [3, 0x40, 0xFF, 0x20], .header 0,
      .observe [5, 0x80, 0x30, 0x21, 0x01, 0x47]]
    let s := (used uses).2
    ((observe [3, 0x80, 0x00, 0x21]).run.run s).1 = .ok () ∧
      ((observe [3, 0x80, 0x01, 0x21]).run.run s).1 ≠ .ok () ∧
      (s.header 0x20).1 = ⟨0xA0, 0x20, 0x00⟩ := by
  intro uses s
  obtain ⟨haccepts, -, hheader, hflags⟩ := used_stream uses
  have hlast : (accepted (used uses).1).getLast? = some [3, 0x40, 0xFF, 0x20] := rfl
  have hgiven : given (used uses).1 ≠ [] := nofun
  refine ⟨(haccepts _).2 ⟨⟨by decide, by decide⟩, ?_⟩, fun h => ?_, ?_⟩
  · rw [hlast]
    rintro _ ⟨⟩
    decide
  · exact absurd (((haccepts _).1 h).2 _ hlast) (by decide)
  · obtain ⟨hseq, hack⟩ := hheader 0x20 _ hlast
    have hflags := hflags 0x20
    rw [if_neg hgiven] at hflags
    exact congr (congr (congrArg StreamHeader.mk hflags) hseq) hack

end UniversalRemote.Stream
