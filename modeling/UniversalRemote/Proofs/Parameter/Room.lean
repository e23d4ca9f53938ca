import UniversalRemote.Z.Net
/-!
# Room in parameter lists

A writer leaves its count byte only with a 256th parameter. The lists of all requests are far from
that.
-/

namespace UniversalRemote

namespace ParameterWriter

/-- A step in the making of a list: it has no answer, or one with at most so many parameters, and
the count byte is not left. -/
def Roomy (limit : Nat) (made : Except (Halt ProtocolError) ParameterWriter) : Prop :=
  made ≠ .error .overflow ∧ ∀ w, made = .ok w → w.count ≤ limit

variable {w : ParameterWriter} {limit : Nat}

theorem roomy_ok (h : w.count ≤ limit) : Roomy limit (.ok w) :=
  ⟨nofun, fun _ hw => Except.ok.inj hw ▸ h⟩

theorem roomy_push (h : w.count ≤ limit) (hlimit : limit < 255) (entry : List UInt8) :
    Roomy (limit + 1) (w.push entry) := by
  have hcount : w.count < 255 := by omega
  rw [push, if_pos hcount]
  refine roomy_ok ?_
  rw [count, List.length_append, List.length_singleton]
  exact Nat.succ_le_succ h

theorem roomy_bytes (h : w.count ≤ limit) (hlimit : limit < 255) (data : List UInt8) :
    Roomy (limit + 1) (w.bytes data) := by
  unfold bytes
  split
  · exact roomy_push h hlimit _
  · exact ⟨nofun, nofun⟩

theorem Roomy.bind {made : Except (Halt ProtocolError) ParameterWriter}
    {f : ParameterWriter → Except (Halt ProtocolError) ParameterWriter} {more : Nat}
    (h : Roomy limit made) (hf : ∀ w : ParameterWriter, w.count ≤ limit → Roomy more (f w)) :
    Roomy more (made >>= f) := by
  cases made with
  | ok w => exact hf w (h.2 w rfl)
  | error halt => exact ⟨fun hhalt => h.1 (congrArg _ (Except.error.inj hhalt)), nofun⟩

section Chains

variable {made : Except (Halt ProtocolError) ParameterWriter} (h : Roomy limit made)
  (hlimit : limit < 255)
include h hlimit

theorem Roomy.byte (b : UInt8) : Roomy (limit + 1) (made >>= (·.byte b)) :=
  h.bind fun _ hw => roomy_push hw hlimit _

theorem Roomy.word (n : UInt16) : Roomy (limit + 1) (made >>= (·.word n)) :=
  h.bind fun _ hw => roomy_push hw hlimit _

theorem Roomy.text (s : String) : Roomy (limit + 1) (made >>= (·.text s)) :=
  h.bind fun _ hw => roomy_bytes hw hlimit _

end Chains

end ParameterWriter

open ParameterWriter

/-- The time takes up nine parameters. -/
theorem Z.roomy_timeParameters (order : ByteOrder) (t : DateTime) :
    Roomy 9 (timeParameters order t) := by
  have hyear : Roomy 1 (ParameterWriter.word { order } t.year) :=
    roomy_push (Nat.le_refl 0) (by decide) _
  have hdate := (hyear.byte (by decide) t.month).byte (by decide) t.day
  have hclock := ((hdate.byte (by decide) t.hour).byte (by decide) t.minute).byte (by decide) t.second
  have hweek := (hclock.byte (by decide) t.weekday).word (by decide) t.offset.toUInt16
  exact hweek.text (by decide) t.zone

end UniversalRemote
