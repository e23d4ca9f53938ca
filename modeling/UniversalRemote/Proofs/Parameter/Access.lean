import UniversalRemote.Parameter.List
import UniversalRemote.Proofs.Link.Access
/-!
# Access to parameters within bounds

A list of parameters is taken out of a report by places in it. The accesses here are absent where they
would lead beyond what there is, and the lists and values read with them are those read without: no
access does.
-/

namespace UniversalRemote

namespace ParameterList

/-! ## Values -/

section Values

variable (p : ParameterList) (i : Nat)

def read? (size : Nat) (read : List UInt8 → Option β) : Option (Except ProtocolError β) :=
  match p.sized i size with
  | .ok value => (read value).map .ok
  | .error cause => some (.error cause)

def byte? : Option (Except ProtocolError UInt8) :=
  p.read? i 1 (·[0]?)

def word? : Option (Except ProtocolError UInt16) :=
  p.read? i 2 fun value => (slice? value 0 2).map fun bytes => UInt16.ofNat (p.order.value bytes)

def dword? : Option (Except ProtocolError UInt32) :=
  p.read? i 4 fun value => (slice? value 0 4).map fun bytes => UInt32.ofNat (p.order.value bytes)

def text? : Option (Except ProtocolError String) :=
  match p.bytes i with
  | .ok value =>
    let stop := (value.findIdx? (· == 0)).getD value.length
    (slice? value 0 stop).map fun bytes => .ok (Utf8.decode bytes)
  | .error cause => some (.error cause)

theorem le_length_of_sized {size : Nat} {value : List UInt8} (h : p.sized i size = .ok value) :
    size ≤ value.length := by
  unfold sized at h
  cases hbytes : p.bytes i with
  | error cause =>
    rw [hbytes] at h
    cases h
  | ok bytes =>
    rw [hbytes] at h
    replace h : (if bytes.length < size then _ else _) = _ := h
    split at h
    · cases h
    · cases h
      omega

theorem read?_eq {size : Nat} {read : List UInt8 → Option β} {f : List UInt8 → β}
    (hread : ∀ value : List UInt8, size ≤ value.length → read value = some (f value)) :
    p.read? i size read = some (do return f (← p.sized i size)) := by
  unfold read?
  cases hsized : p.sized i size with
  | error cause => rfl
  | ok value =>
    dsimp only
    rw [hread value (p.le_length_of_sized i hsized)]
    rfl

theorem byte?_eq : p.byte? i = some (p.byte i) := by
  refine p.read?_eq i fun value hvalue => ?_
  cases value with
  | nil => exact absurd hvalue (by decide)
  | cons b value => rfl

theorem word?_eq : p.word? i = some (p.word i) := by
  refine p.read?_eq i fun value hvalue => ?_
  rw [slice?_zero hvalue]
  rfl

theorem dword?_eq : p.dword? i = some (p.dword i) := by
  refine p.read?_eq i fun value hvalue => ?_
  rw [slice?_zero hvalue]
  rfl

theorem text?_eq : p.text? i = some (p.text i) := by
  unfold text? text
  cases p.bytes i with
  | error cause => rfl
  | ok value =>
    have htake : value.take (value.findIdx (· == 0)) = value.takeWhile (· != 0) := by
      rw [List.takeWhile_eq_take_findIdx_not]
      congr 2
      funext b
      exact (Bool.not_not _).symm
    dsimp only
    rw [← List.findIdx_eq_getD_findIdx?, slice?_zero List.findIdx_le_length, htake]
    rfl

end Values

/-! ## Lists -/

variable (data : List UInt8)

def atOffsets? (layout : List (Nat × Nat)) : Option (List (List UInt8)) :=
  (layout.takeWhile fun (offset, length) => offset + length ≤ data.length).mapM
    fun (offset, length) => slice? data offset (offset + length)

def entries? : Nat → Nat → Option (Except ProtocolError (List (List UInt8)))
  | 0, _ => some (.ok [])
  | count + 1, i =>
    match data[i]? with
    | none => some (.error (.shortPacket (i + 1) data.length))
    | some b =>
      let stop := i + 1 + Length.decode b
      if data.length < stop then some (.error (.shortPacket stop data.length))
      else do
        let value ← slice? data (i + 1) stop
        let rest ← entries? count stop
        return rest.map (value :: ·)

def parse? (countAt : Nat) (order : ByteOrder) : Option (Except ProtocolError ParameterList) :=
  match data[countAt]? with
  | none => some (.ok ⟨order, []⟩)
  | some count => (entries? data count.toNat (countAt + 1)).map fun values => values.map (⟨order, ·⟩)

def ofDatagram? : Option (Except ProtocolError ParameterList) :=
  match data[2]? with
  | none => some (.error (.shortPacket 4 data.length))
  | some command =>
    if command = 0x61 then (atOffsets? data systemLayout).map fun values => .ok ⟨.little, values⟩
    else if command = 0x67 then (atOffsets? data [(4, 16)]).map fun values => .ok ⟨.little, values⟩
    else if command = 0x70 then do
      let values ← atOffsets? data clockLayout
      if zoneOffset < data.length then
        let zone ← slice? data zoneOffset data.length
        return .ok ⟨.little, values ++ [zone]⟩
      else return .ok ⟨.little, values.take 8⟩
    else parse? data 4 .little

theorem atOffsets?_eq (layout : List (Nat × Nat)) :
    atOffsets? data layout = some (atOffsets data layout) := by
  refine mapM_eq_map fun place hplace => ?_
  have hfits := List.all_eq_true.1 List.all_takeWhile place hplace
  exact slice?_add (of_decide_eq_true hfits)

theorem entries?_eq (count : Nat) :
    ∀ i, i ≤ data.length →
      entries? data count i = some (entries data.length count (data.drop i)) := by
  induction count with
  | zero => exact fun _ _ => rfl
  | succ count ih =>
    intro i hi
    unfold entries?
    cases hget : data[i]? with
    | none =>
      have hlength := List.getElem?_eq_none_iff.1 hget
      obtain rfl : i = data.length := Nat.le_antisymm hi hlength
      rw [List.drop_length]
      rfl
    | some b =>
      obtain ⟨hlt, rfl⟩ := List.getElem?_eq_some_iff.1 hget
      rw [List.drop_eq_getElem_cons hlt, entries]
      have hplace : data.length - (data.drop (i + 1)).length = i + 1 := by
        rw [List.length_drop]
        omega
      have hshort : (data.drop (i + 1)).length < Length.decode data[i] ↔
          data.length < i + 1 + Length.decode data[i] := by
        rw [List.length_drop]
        omega
      simp only [hplace, hshort]
      split
      · rfl
      · rename_i hlong
        rw [slice?_add (Nat.not_lt.1 hlong)]
        dsimp only [Option.bind_eq_bind, Option.bind_some]
        rw [ih _ (Nat.not_lt.1 hlong), List.drop_drop]
        rfl

theorem parse?_eq (countAt : Nat) (order : ByteOrder) :
    parse? data countAt order = some (parse data countAt order) := by
  unfold parse? parse
  cases hget : data[countAt]? with
  | none => rw [List.drop_eq_nil_of_le (List.getElem?_eq_none_iff.1 hget)]
  | some count =>
    obtain ⟨hlt, rfl⟩ := List.getElem?_eq_some_iff.1 hget
    rw [List.drop_eq_getElem_cons hlt]
    dsimp only
    rw [entries?_eq data _ _ hlt]
    rfl

/-- No list of parameters leads beyond the report that carries it. -/
theorem ofDatagram?_eq : ofDatagram? data = some (ofDatagram data) := by
  unfold ofDatagram? ofDatagram
  cases data[2]? with
  | none => rfl
  | some command =>
    dsimp only
    rw [atOffsets?_eq, atOffsets?_eq, atOffsets?_eq, parse?_eq]
    split
    · rfl
    split
    · rfl
    split
    · dsimp only [Option.bind_eq_bind, Option.bind_some]
      split
      · rename_i hzone
        rw [slice?_length (Nat.le_of_lt hzone)]
        rfl
      · rfl
    · rfl

/-- What is read of parameters is there, and the reports that carry them have what is read of them. -/
structure WithinBounds : Prop where
  byte : ∀ (p : ParameterList) (i : Nat), p.byte? i = some (p.byte i)
  word : ∀ (p : ParameterList) (i : Nat), p.word? i = some (p.word i)
  dword : ∀ (p : ParameterList) (i : Nat), p.dword? i = some (p.dword i)
  text : ∀ (p : ParameterList) (i : Nat), p.text? i = some (p.text i)
  ofDatagram : ∀ data, ofDatagram? data = some (ofDatagram data)
  ofNetwork : ∀ data, parse? data 3 .big = some (ofNetwork data)

theorem withinBounds : WithinBounds where
  byte := byte?_eq
  word := word?_eq
  dword := dword?_eq
  text := text?_eq
  ofDatagram := ofDatagram?_eq
  ofNetwork := fun data => parse?_eq data 3 .big

end ParameterList

end UniversalRemote
