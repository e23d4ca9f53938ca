import UniversalRemote.Proofs.Parameter.RoundTrip
/-!
# Parameter lists that are accepted

The entries of a parameter list, a length byte and a payload each, make up a walk over the data. A list is
accepted exactly if its walk does not leave the data, it then has the payloads on the way, and it can be
written again: `ParameterList.parse_walk`.
-/

namespace UniversalRemote.ParameterList

/-- The place behind so many entries from a place on. Behind the data a length byte counts as zero. -/
def walkEnd (data : List UInt8) : Nat → Nat → Nat
  | 0, place => place
  | count + 1, place => walkEnd data count (place + 1 + Length.decode (data.getD place 0))

/-- The payloads of so many entries from a place on. -/
def payloads (data : List UInt8) : Nat → Nat → List (List UInt8)
  | 0, _ => []
  | count + 1, place =>
    let size := Length.decode (data.getD place 0)
    (data.drop (place + 1)).take size :: payloads data count (place + 1 + size)

variable {data : List UInt8}

theorem le_walkEnd (count place : Nat) : place ≤ walkEnd data count place := by
  induction count generalizing place with
  | zero => exact Nat.le_refl place
  | succ count ih =>
    have hrest := ih (place + 1 + Length.decode (data.getD place 0))
    rw [walkEnd]
    omega

theorem length_payloads (count place : Nat) : (payloads data count place).length = count := by
  induction count generalizing place with
  | zero => rfl
  | succ count ih => simp [payloads, ih]

/-- Within the data, a payload has the length that its length byte announces. -/
theorem encodable_of_mem_payloads {count place : Nat} (h : walkEnd data count place ≤ data.length) :
    ∀ value ∈ payloads data count place, Length.Encodable value.length := by
  induction count generalizing place with
  | zero => exact nofun
  | succ count ih =>
    rw [walkEnd] at h
    have hnext : place + 1 + Length.decode (data.getD place 0) ≤ walkEnd data count _ :=
      le_walkEnd count _
    rw [payloads, List.forall_mem_cons]
    refine ⟨⟨data.getD place 0, ?_⟩, ih h⟩
    rw [List.length_take, List.length_drop]
    omega

/-- One entry is walked over if it ends within the data. -/
theorem entries_succ {place : Nat} (h : place < data.length) (count : Nat) :
    entries data.length (count + 1) (data.drop place) =
      let next := place + 1 + Length.decode (data.getD place 0)
      if data.length < next then .error (.shortPacket next data.length)
      else (entries data.length count (data.drop next)).map
        ((data.drop (place + 1)).take (Length.decode (data.getD place 0)) :: ·) := by
  have hbyte : data.getD place 0 = data[place] := by simp [h]
  rw [List.drop_eq_getElem_cons h, hbyte]
  simp only [entries, List.length_drop, List.drop_drop]
  by_cases hshort : data.length - (place + 1) < Length.decode data[place]
  · have hend : data.length - (data.length - (place + 1)) + Length.decode data[place] =
        place + 1 + Length.decode data[place] := by omega
    rw [if_pos hshort, if_pos (by omega), hend]
  · rw [if_neg hshort, if_neg (by omega)]

/-- A walk that stays within the data comes to its payloads. -/
theorem entries_of_walkEnd_le {count place : Nat} (h : walkEnd data count place ≤ data.length) :
    entries data.length count (data.drop place) = .ok (payloads data count place) := by
  induction count generalizing place with
  | zero => rw [entries, payloads]
  | succ count ih =>
    rw [walkEnd] at h
    have hnext : place + 1 + Length.decode (data.getD place 0) ≤ walkEnd data count _ :=
      le_walkEnd count _
    rw [entries_succ (by omega)]
    dsimp only
    rw [if_neg (by omega), ih h, payloads]
    rfl

/-- A walk that leaves the data ends with the first entry that does. -/
theorem entries_of_lt_walkEnd {count place : Nat} (hplace : place ≤ data.length)
    (h : data.length < walkEnd data count place) : ∃ expected, data.length < expected ∧
      entries data.length count (data.drop place) = .error (.shortPacket expected data.length) := by
  induction count generalizing place with
  | zero =>
    rw [walkEnd] at h
    omega
  | succ count ih =>
    rw [walkEnd] at h
    by_cases hend : place = data.length
    · refine ⟨data.length + 1, Nat.lt_succ_self _, ?_⟩
      rw [hend, List.drop_length, entries]
    rw [entries_succ (by omega)]
    dsimp only
    by_cases hshort : data.length < place + 1 + Length.decode (data.getD place 0)
    · exact ⟨_, hshort, if_pos hshort⟩
    · obtain ⟨expected, hexpected, hrest⟩ := ih (Nat.not_lt.1 hshort) h
      refine ⟨expected, hexpected, ?_⟩
      rw [if_neg hshort, hrest]
      rfl

section Parse

variable {countAt : Nat} (h : countAt < data.length) (order : ByteOrder)
include h

theorem parse_eq_entries : parse data countAt order =
    (entries data.length data[countAt].toNat (data.drop (countAt + 1))).map (⟨order, ·⟩) := by
  rw [parse, List.drop_eq_getElem_cons h]

theorem parse_of_walkEnd_le
    (hend : walkEnd data data[countAt].toNat (countAt + 1) ≤ data.length) :
    parse data countAt order = .ok ⟨order, payloads data data[countAt].toNat (countAt + 1)⟩ := by
  rw [parse_eq_entries h, entries_of_walkEnd_le hend]
  rfl

theorem parse_of_lt_walkEnd
    (hend : data.length < walkEnd data data[countAt].toNat (countAt + 1)) :
    ∃ expected, data.length < expected ∧
      parse data countAt order = .error (.shortPacket expected data.length) := by
  obtain ⟨expected, hexpected, hentries⟩ := entries_of_lt_walkEnd h hend
  refine ⟨expected, hexpected, ?_⟩
  rw [parse_eq_entries h, hentries]
  rfl

theorem parse_eq_ok_iff {p : ParameterList} : parse data countAt order = .ok p ↔
    walkEnd data data[countAt].toNat (countAt + 1) ≤ data.length ∧
      p = ⟨order, payloads data data[countAt].toNat (countAt + 1)⟩ := by
  by_cases hend : walkEnd data data[countAt].toNat (countAt + 1) ≤ data.length
  · rw [parse_of_walkEnd_le h order hend, Except.ok.injEq, eq_comm]
    exact (and_iff_right hend).symm
  · obtain ⟨expected, -, herror⟩ := parse_of_lt_walkEnd h order (Nat.not_le.1 hend)
    rw [herror]
    exact ⟨nofun, fun hp => absurd hp.1 hend⟩

end Parse

/-- Parameters that can be encoded are written, one byte string after another, and read back. -/
theorem exists_writer {values : List (List UInt8)} (hcount : values.length ≤ 255)
    (hvalues : ∀ value ∈ values, Length.Encodable value.length) (order : ByteOrder) :
    ∃ w : ParameterWriter, values.foldlM ParameterWriter.bytes { order } = .ok w ∧
      ∀ front suffix, parse (front ++ w.finish ++ suffix) front.length order = .ok ⟨order, values⟩ := by
  have hroom : ([] : List (List UInt8)).length + (values.map Parameter.bytes).length ≤ 255 := by
    simpa using hcount
  have hencodable : ∀ v ∈ values.map Parameter.bytes, v.Encodable := by
    simpa [Parameter.Encodable] using hvalues
  obtain ⟨w, hpush, hholds⟩ :=
    Parameter.pushAll_holds (ParameterWriter.holds_empty order) hroom hencodable
  have hraw : (values.map Parameter.bytes).map (Parameter.raw order) = values := by
    simp [Function.comp_def, Parameter.raw]
  rw [List.nil_append, hraw] at hholds
  refine ⟨w, ?_, fun front suffix => hholds.parse front suffix order⟩
  rw [Parameter.pushAll, List.foldlM_map] at hpush
  exact hpush

/-- A list is accepted exactly if the walk over as many entries as its count byte tells ends within the
data, with the payloads on the way. Otherwise it is reported how many bytes would have been needed. What
is accepted can be written again, parameter by parameter, and is read back. -/
theorem parse_walk (data : List UInt8) (countAt : Nat) (order : ByteOrder)
    (h : countAt < data.length) :
    let count := data[countAt].toNat
    (∀ p, parse data countAt order = .ok p ↔
      walkEnd data count (countAt + 1) ≤ data.length ∧
        p = ⟨order, payloads data count (countAt + 1)⟩) ∧
    (¬ walkEnd data count (countAt + 1) ≤ data.length → ∃ expected, data.length < expected ∧
      parse data countAt order = .error (.shortPacket expected data.length)) ∧
    ∀ p, parse data countAt order = .ok p → ∃ w : ParameterWriter,
      p.values.foldlM ParameterWriter.bytes { order } = .ok w ∧
        ∀ front suffix, parse (front ++ w.finish ++ suffix) front.length order = .ok p := by
  intro count
  refine ⟨fun p => parse_eq_ok_iff h order, fun hend => ?_, fun p hp => ?_⟩
  · exact parse_of_lt_walkEnd h order (Nat.not_le.1 hend)
  · obtain ⟨hend, rfl⟩ := (parse_eq_ok_iff h order).1 hp
    refine exists_writer ?_ (encodable_of_mem_payloads hend) order
    rw [length_payloads]
    exact Nat.le_of_lt_succ data[countAt].toNat_lt

/-- A message with two parameters, the first counted in fours, and bytes behind them. -/
theorem parse_walk_two_units :
    let data : List UInt8 := [0x20, 0x47, 0x01, 2, 0x41, 1, 2, 3, 4, 0x82, 5, 6, 0, 0]
    let p : ParameterList := ⟨.big, [[1, 2, 3, 4], [5, 6]]⟩
    3 < data.length ∧ parse data 3 .big = .ok p ∧ ∃ w : ParameterWriter,
      p.values.foldlM ParameterWriter.bytes { order := .big } = .ok w ∧
        ∀ front suffix, parse (front ++ w.finish ++ suffix) front.length .big = .ok p := by
  intro data p
  obtain ⟨haccepts, -, hwritten⟩ := parse_walk data 3 .big (by decide)
  have hp : parse data 3 .big = .ok p := (haccepts p).2 ⟨by decide, by decide⟩
  exact ⟨by decide, hp, hwritten p hp⟩

end UniversalRemote.ParameterList
