import UniversalRemote.Proofs.Parameter.ReadBack
import UniversalRemote.Proofs.Text.Encoding
/-!
# Parameters written and read

Whatever list of parameters a writer accepts is read with the values that were pushed, in either
order of the words and between any other bytes: `Parameter.parse_pushAll`. A parameter is pushed as
the byte that announces its length and its own bytes, so a list being built holds the bytes of all
parameters so far, and the reader of each kind undoes what the writer of that kind did.
-/

namespace UniversalRemote

namespace Length

def Encodable (length : Nat) : Prop :=
  ∃ b, decode b = length

/-- A byte announces a small length, a multiple of four or a multiple of 512. -/
theorem decode_cases (b : UInt8) :
    decode b ≤ 63 ∨ ∃ count ≤ 63, decode b = count * 4 ∨ decode b = count * 512 := by
  have hcount : b.toNat % 64 ≤ 63 := Nat.le_of_lt_succ (Nat.mod_lt _ (by decide))
  unfold decode
  dsimp only
  split
  · exact .inr ⟨_, hcount, .inl rfl⟩
  · exact .inr ⟨_, hcount, .inr rfl⟩
  · exact .inl hcount

/-- The lengths that are announced are those that the encoder accepts. -/
theorem encodable_iff {length : Nat} : Encodable length ↔ ∃ b, encode length = .ok b := by
  constructor
  · rintro ⟨b, rfl⟩
    have hcases := decode_cases b
    unfold encode
    split
    · exact ⟨_, rfl⟩
    split
    · exact ⟨_, rfl⟩
    split
    · exact ⟨_, rfl⟩
    obtain hsmall | ⟨count, hcount, hfour | hlarge⟩ := hcases <;> omega
  · rintro ⟨b, h⟩
    exact ⟨b, decode_encode h⟩

end Length

/-- A parameter as it is handed to a writer. -/
inductive Parameter where
  | byte (b : UInt8)
  | word (n : UInt16)
  | dword (n : UInt32)
  | bytes (data : List UInt8)
  | text (s : String)
  deriving DecidableEq

namespace Parameter

def push (w : ParameterWriter) : Parameter → Except (Halt ProtocolError) ParameterWriter
  | byte b => w.byte b
  | word n => w.word n
  | dword n => w.dword n
  | bytes data => w.bytes data
  | text s => w.text s

def pushAll (w : ParameterWriter) (values : List Parameter) :
    Except (Halt ProtocolError) ParameterWriter :=
  values.foldlM push w

def raw (order : ByteOrder) : Parameter → List UInt8
  | byte b => [b]
  | word n => order.bytes16 n
  | dword n => order.bytes32 n
  | bytes data => data
  | text s => Utf8.encode s ++ [0]

/-- Lengths that have a length byte, and texts without the zero that ends them. -/
def Encodable : Parameter → Prop
  | bytes data => Length.Encodable data.length
  | text s => '\x00' ∉ s.toList ∧ Length.Encodable (s.utf8ByteSize + 1)
  | byte _ | word _ | dword _ => True

/-- The reader of its kind returns the parameter at a place of a list. -/
def IsRead (p : ParameterList) (i : Nat) : Parameter → Prop
  | byte b => p.byte i = .ok b
  | word n => p.word i = .ok n
  | dword n => p.dword i = .ok n
  | bytes data => p.bytes i = .ok data
  | text s => p.text i = .ok s

/-- A parameter is pushed as a byte that announces its length and its bytes. -/
theorem push_eq (w : ParameterWriter) {v : Parameter} (hv : v.Encodable) :
    ∃ b, Length.decode b = (v.raw w.order).length ∧ push w v = w.push (b :: v.raw w.order) := by
  have hbytes : ∀ data : List UInt8, Length.Encodable data.length →
      ∃ b, Length.decode b = data.length ∧ w.bytes data = w.push (b :: data) := by
    intro data hdata
    obtain ⟨b, hb⟩ := Length.encodable_iff.1 hdata
    refine ⟨b, Length.decode_encode hb, ?_⟩
    rw [ParameterWriter.bytes, hb]
  cases v with
  | byte b => exact ⟨1, rfl, rfl⟩
  | word n =>
    refine ⟨2, ?_, rfl⟩
    rw [raw, ByteOrder.bytes16, ByteOrder.length_bytes]
    rfl
  | dword n =>
    refine ⟨4, ?_, rfl⟩
    rw [raw, ByteOrder.bytes32, ByteOrder.length_bytes]
    rfl
  | bytes data => exact hbytes data hv
  | text s =>
    have hlength : (Utf8.encode s ++ [0]).length = s.utf8ByteSize + 1 := by
      rw [List.length_append, Utf8.length_encode, List.length_singleton]
    exact hbytes _ (hlength ▸ hv.2)

/-- A list with room takes a parameter in. -/
theorem push_holds {w : ParameterWriter} {values : List (List UInt8)} (h : w.Holds values)
    (hroom : values.length < 255) {v : Parameter} (hv : v.Encodable) :
    ∃ after, push w v = .ok after ∧ after.Holds (values ++ [v.raw w.order]) ∧
      after.order = w.order := by
  obtain ⟨b, hb, hpush⟩ := push_eq w hv
  have hcount : w.count < 255 := by
    rw [ParameterWriter.count, h.entries.length_eq]
    exact hroom
  have hafter : w.push (b :: v.raw w.order) =
      .ok { w with entries := w.entries ++ [b :: v.raw w.order] } := by
    rw [ParameterWriter.push, if_pos hcount]
  exact ⟨_, hpush.trans hafter, h.push hb hafter, rfl⟩

theorem pushAll_holds {w : ParameterWriter} {values : List Parameter} {before : List (List UInt8)}
    (h : w.Holds before) (hroom : before.length + values.length ≤ 255)
    (hvalues : ∀ v ∈ values, v.Encodable) :
    ∃ after, pushAll w values = .ok after ∧ after.Holds (before ++ values.map (raw w.order)) := by
  induction values generalizing w before with
  | nil => exact ⟨w, rfl, by rwa [List.map_nil, List.append_nil]⟩
  | cons v values ih =>
    rw [List.length_cons] at hroom
    obtain ⟨hv, hrest⟩ := List.forall_mem_cons.1 hvalues
    obtain ⟨next, hpush, hnext, horder⟩ := push_holds h (by omega) hv
    have hroom' : (before ++ [v.raw w.order]).length + values.length ≤ 255 := by
      rw [List.length_append, List.length_singleton]
      omega
    obtain ⟨after, hafter, hholds⟩ := ih hnext hroom' hrest
    refine ⟨after, ?_, ?_⟩
    · rw [pushAll, List.foldlM_cons, hpush]
      exact hafter
    · rw [horder, List.append_assoc, List.singleton_append] at hholds
      rwa [List.map_cons]

/-- The bytes of a parameter are read as its value. -/
theorem isRead_of_bytes {p : ParameterList} {i : Nat} {v : Parameter} (hv : v.Encodable)
    (h : p.bytes i = .ok (v.raw p.order)) : v.IsRead p i := by
  have hsized : ∀ size, (v.raw p.order).length = size → p.sized i size = .ok (v.raw p.order) := by
    intro size hsize
    rw [ParameterList.sized, h]
    exact if_neg (by omega)
  cases v with
  | byte b =>
    show p.byte i = .ok b
    rw [ParameterList.byte, hsized 1 rfl]
    rfl
  | word n =>
    have hlength : (p.order.bytes16 n).length = 2 := ByteOrder.length_bytes ..
    show p.word i = .ok n
    rw [ParameterList.word, hsized 2 hlength]
    show Except.ok (p.order.word16 (p.order.bytes16 n)) = .ok n
    rw [ByteOrder.word16_bytes16]
  | dword n =>
    have hlength : (p.order.bytes32 n).length = 4 := ByteOrder.length_bytes ..
    show p.dword i = .ok n
    rw [ParameterList.dword, hsized 4 hlength]
    show Except.ok (p.order.word32 (p.order.bytes32 n)) = .ok n
    rw [ByteOrder.word32_bytes32]
  | bytes data => exact h
  | text s =>
    have hkept : ∀ b ∈ Utf8.encode s, (b != 0) = true := by
      intro b hb
      exact bne_iff_ne.2 fun hzero => Utf8.zero_notMem_encode hv.1 (hzero ▸ hb)
    show p.text i = .ok s
    rw [ParameterList.text, h]
    show Except.ok (Utf8.decode ((Utf8.encode s ++ [0]).takeWhile (· != 0))) = .ok s
    rw [List.takeWhile_append_of_pos hkept, List.takeWhile_cons_of_neg (by decide),
      List.append_nil, Utf8.decode_encode]

/-- Up to 255 encodable parameters can be pushed, and the list is read back with as many, each with
its bytes and with the value that was pushed, whatever stands before and behind it. -/
theorem parse_pushAll (order : ByteOrder) (values : List Parameter) (front suffix : List UInt8)
    (hcount : values.length ≤ 255) (hvalues : ∀ v ∈ values, v.Encodable) :
    ∃ w p, pushAll { order } values = .ok w ∧
      ParameterList.parse (front ++ w.finish ++ suffix) front.length order = .ok p ∧
      p.values = values.map (raw order) ∧
      ∀ i v, values[i]? = some v → p.bytes i = .ok (v.raw order) ∧ v.IsRead p i := by
  have hroom : ([] : List (List UInt8)).length + values.length ≤ 255 := by
    rwa [List.length_nil, Nat.zero_add]
  obtain ⟨w, hpush, hholds⟩ :=
    pushAll_holds (ParameterWriter.holds_empty order) hroom hvalues
  rw [List.nil_append] at hholds
  refine ⟨w, _, hpush, hholds.parse front suffix order, rfl, ?_⟩
  intro i v hi
  have hbytes : ParameterList.bytes ⟨order, values.map (raw order)⟩ i = .ok (v.raw order) := by
    rw [ParameterList.bytes, List.getElem?_map, hi]
    rfl
  exact ⟨hbytes, isRead_of_bytes (hvalues v (List.mem_of_getElem? hi)) hbytes⟩

/-- One parameter of each kind, with the longest byte string that is counted in fours and a text of
more bytes than characters. -/
def mixed : List Parameter :=
  [.byte 7, .word 0x1234, .dword 0x89ABCDEF, .bytes (List.replicate 252 0xFF), .text "Büro"]

theorem parse_pushAll_mixed :
    ∃ w p, pushAll { order := .big } mixed = .ok w ∧
      ParameterList.parse ([0x22, 0x03] ++ w.finish ++ [0, 0, 0]) 2 .big = .ok p ∧
      p.values = mixed.map (raw .big) ∧
      ∀ i v, mixed[i]? = some v → p.bytes i = .ok (v.raw .big) ∧ v.IsRead p i := by
  have hbytes : Length.Encodable (List.replicate 252 (0xFF : UInt8)).length :=
    ⟨0x7F, by rw [List.length_replicate]; decide⟩
  have htext : '\x00' ∉ "Büro".toList ∧ Length.Encodable ("Büro".utf8ByteSize + 1) :=
    ⟨by decide, 6, by decide⟩
  have hvalues : ∀ v ∈ mixed, v.Encodable := by
    simp only [mixed, List.forall_mem_cons, Encodable, true_and]
    exact ⟨hbytes, htext, nofun⟩
  exact parse_pushAll .big mixed [0x22, 0x03] [0, 0, 0] (by decide) hvalues

end Parameter

end UniversalRemote
