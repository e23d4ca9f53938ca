import Mathlib.Data.List.Forall2
import UniversalRemote.Parameter.List
import UniversalRemote.Parameter.Writer
/-!
# Parameter lists read back

A list that was written is read with the same parameters, whatever stands before and behind it.
-/

namespace UniversalRemote.ParameterWriter

/-- An encoded parameter: a byte that announces its length, and its bytes. -/
def Encodes (entry value : List UInt8) : Prop :=
  ∃ b, entry = b :: value ∧ Length.decode b = value.length

/-- The parameters that a list being built holds so far. -/
structure Holds (w : ParameterWriter) (values : List (List UInt8)) : Prop where
  entries : List.Forall₂ Encodes w.entries values
  count : w.count < 256

variable {w after : ParameterWriter} {values : List (List UInt8)}

theorem holds_empty (order : ByteOrder) : Holds { order } [] :=
  ⟨.nil, Nat.zero_lt_succ _⟩

theorem Holds.push (h : w.Holds values) {b : UInt8} {value : List UInt8}
    (hb : Length.decode b = value.length) (hpush : w.push (b :: value) = .ok after) :
    after.Holds (values ++ [value]) := by
  unfold ParameterWriter.push at hpush
  by_cases hcount : w.count < 255
  · rw [if_pos hcount] at hpush
    cases hpush
    refine ⟨List.rel_append h.entries (.cons ⟨b, rfl, hb⟩ .nil), ?_⟩
    simp only [ParameterWriter.count] at hcount ⊢
    rw [List.length_append, List.length_singleton]
    omega
  · rw [if_neg hcount] at hpush
    cases hpush

theorem Holds.byte (h : w.Holds values) {b : UInt8} (hpush : w.byte b = .ok after) :
    after.Holds (values ++ [[b]]) :=
  h.push rfl hpush

theorem Holds.dword (h : w.Holds values) {n : UInt32} (hpush : w.dword n = .ok after) :
    after.Holds (values ++ [w.order.bytes32 n]) := by
  refine h.push ?_ hpush
  rw [ByteOrder.bytes32, ByteOrder.length_bytes]
  rfl

theorem Holds.bytes (h : w.Holds values) {data : List UInt8} (hpush : w.bytes data = .ok after) :
    after.Holds (values ++ [data]) := by
  unfold ParameterWriter.bytes at hpush
  cases hlength : Length.encode data.length with
  | error cause =>
    rw [hlength] at hpush
    cases hpush
  | ok b =>
    rw [hlength] at hpush
    exact h.push (Length.decode_encode hlength) hpush

theorem entries_flatten {entries : List (List UInt8)} (h : List.Forall₂ Encodes entries values)
    (total : Nat) (suffix : List UInt8) :
    ParameterList.entries total entries.length (entries.flatten ++ suffix) = .ok values := by
  induction h with
  | nil => rfl
  | @cons entry value entries values hentry hrest ih =>
    obtain ⟨b, rfl, hb⟩ := hentry
    have hroom : ¬ (value ++ (entries.flatten ++ suffix)).length < value.length := by
      rw [List.length_append]
      omega
    rw [List.flatten_cons, List.append_assoc, List.cons_append, List.length_cons,
      ParameterList.entries]
    simp only [hb, if_neg hroom, List.drop_left, List.take_left, ih]
    rfl

/-- A written list reads back, between whatever stands before and behind it. -/
theorem Holds.parse (h : w.Holds values) (front suffix : List UInt8) (order : ByteOrder) :
    ParameterList.parse (front ++ w.finish ++ suffix) front.length order = .ok ⟨order, values⟩ := by
  have hcount : (UInt8.ofNat w.count).toNat = w.entries.length := by
    have := h.count
    rw [UInt8.toNat_ofNat']
    exact Nat.mod_eq_of_lt this
  have hdrop : (front ++ w.finish ++ suffix).drop front.length =
      UInt8.ofNat w.count :: (w.entries.flatten ++ suffix) := by
    rw [List.append_assoc, List.drop_left, finish, List.cons_append]
  unfold ParameterList.parse
  rw [hdrop]
  simp only [hcount, entries_flatten h.entries]
  rfl

end UniversalRemote.ParameterWriter
