import UniversalRemote.Error
/-!
# Stream headers

The running state of a stream over reports: packets are counted by the bytes they carry, and the
packets that open and close the stream count one more each.
-/

namespace UniversalRemote

def finFlag : UInt8 := 0x20

def synFlag : UInt8 := 0x40

def ackFlag : UInt8 := 0x80

/-- The changing part of an outgoing packet's header. -/
structure StreamHeader where
  flags : UInt8
  seq : UInt8
  ack : UInt8
  deriving DecidableEq, Repr

/-- What one end of a stream remembers: whether it has answered the opening, the number that the
peer must send next, and the last packet that it took in. -/
structure Stream where
  opened : Bool := false
  seq : UInt8 := 0
  ack : UInt8 := 0
  payload : UInt8 := 0
  flags : UInt8 := 0
  due : Option UInt8 := none
  deriving DecidableEq, Repr

namespace Stream

def consumed (s : Stream) : UInt8 :=
  if s.flags &&& (synFlag ||| finFlag) = 0 then s.seq + s.payload else s.seq + s.payload + 1

/-- Takes in a packet `[length, flags, seq, ack, …]`, or refuses it. -/
def observe (packet : List UInt8) : ExceptT ProtocolError (StateM Stream) Unit := do
  match packet with
  | length :: flags :: seq :: ack :: _ =>
    if length < 3 then throw (.shortPacket 4 packet.length)
    if let some due := (← get).due then
      if seq ≠ due then throw (.sequenceMismatch due seq)
    modify ({ · with flags, seq, ack, payload := length - 3 })
    modify fun s => { s with due := some s.consumed }
  | _ => throw (.shortPacket 4 packet.length)

def absorb (s : Stream) (packet : List UInt8) : Except ProtocolError Stream :=
  match (observe packet).run.run s with
  | (.ok (), after) => .ok after
  | (.error cause, _) => .error cause

/-- The header of the next packet to send, which acknowledges all that was taken in. The first one
answers the opening. -/
def header (s : Stream) (extra : UInt8) : StreamHeader × Stream :=
  let flags := ackFlag ||| extra
  (⟨if s.opened then flags else flags ||| synFlag, s.ack, s.consumed⟩, { s with opened := true })

theorem run_observe (s : Stream) (packet : List UInt8) : (observe packet).run.run s =
    match packet with
    | length :: flags :: seq :: ack :: _ =>
      if length < 3 then (.error (.shortPacket 4 packet.length), s)
      else
        let next : Stream := { s with seq, ack, flags, payload := length - 3 }
        match s.due with
        | none => (.ok (), { next with due := some next.consumed })
        | some due =>
          if seq = due then (.ok (), { next with due := some next.consumed })
          else (.error (.sequenceMismatch due seq), s)
    | _ => (.error (.shortPacket 4 packet.length), s) := by
  match packet with
  | [] | [_] | [_, _] | [_, _, _] => rfl
  | length :: flags :: seq :: ack :: rest =>
    by_cases hlength : length < 3
    · simp only [observe, if_pos hlength]
      rfl
    · have hget (next : Stream → ExceptT ProtocolError (StateM Stream) Unit) :
          (get >>= next).run.run s = (next s).run.run s := rfl
      simp only [observe, if_neg hlength]
      refine (hget _).trans ?_
      cases s.due with
      | none => rfl
      | some due =>
        by_cases hseq : seq = due
        · simp only [hseq, ne_eq, not_true_eq_false, if_false, if_true]
          rfl
        · simp only [hseq, ne_eq, not_false_eq_true, if_true, if_false]
          rfl

theorem absorb_eq (s : Stream) (packet : List UInt8) : s.absorb packet =
    match packet with
    | length :: flags :: seq :: ack :: _ =>
      if length < 3 then .error (.shortPacket 4 packet.length)
      else
        let next : Stream := { s with seq, ack, flags, payload := length - 3 }
        match s.due with
        | none => .ok { next with due := some next.consumed }
        | some due =>
          if seq = due then .ok { next with due := some next.consumed }
          else .error (.sequenceMismatch due seq)
    | _ => .error (.shortPacket 4 packet.length) := by
  rw [absorb, run_observe]
  match packet with
  | [] | [_] | [_, _] | [_, _, _] => rfl
  | length :: flags :: seq :: ack :: rest =>
    by_cases hlength : length < 3
    · simp only [if_pos hlength]
    · simp only [if_neg hlength]
      cases s.due with
      | none => rfl
      | some due =>
        by_cases hseq : seq = due
        · simp only [if_pos hseq]
        · simp only [if_neg hseq]

theorem run_observe_of_ok {s after : Stream} {packet : List UInt8}
    (h : s.absorb packet = .ok after) : (observe packet).run.run s = (.ok (), after) := by
  unfold absorb at h
  split at h
  · rename_i hrun
    cases h
    exact hrun
  · cases h

/-- A packet that is refused leaves the stream as it was. -/
theorem run_observe_of_error {s : Stream} {packet : List UInt8} {cause : ProtocolError}
    (h : s.absorb packet = .error cause) : (observe packet).run.run s = (.error cause, s) := by
  rw [absorb_eq] at h
  rw [run_observe]
  match packet with
  | [] | [_] | [_, _] | [_, _, _] => cases h; rfl
  | length :: flags :: seq :: ack :: rest =>
    dsimp only at h ⊢
    by_cases hlength : length < 3
    · rw [if_pos hlength] at h
      cases h
      exact if_pos hlength
    · rw [if_neg hlength] at h ⊢
      cases hdue : s.due with
      | none =>
        rw [hdue] at h
        cases h
      | some due =>
        rw [hdue] at h
        by_cases hseq : seq = due
        · cases h.symm.trans (if_pos hseq)
        · cases h.symm.trans (if_neg hseq)
          exact if_neg hseq

end Stream

end UniversalRemote
