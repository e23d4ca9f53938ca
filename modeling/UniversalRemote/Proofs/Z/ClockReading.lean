import Mathlib.Data.List.TakeWhile
import UniversalRemote.Link.Script
import UniversalRemote.Proofs.Link.Dialogue
import UniversalRemote.Proofs.Parameter.RoundTrip
import UniversalRemote.Z.Net
/-!
# One clock in two framings

A time comes in a report, at fixed offsets and with the least significant byte of a word first, or
in a message, as a list of parameters with the most significant byte first. Three parameters that
mean nothing stand in front of the zone in a message, and six bytes in a report, where the zone may
be left out. Both framings bring the same values to one decoder, and the host has the same time from
either (`readClock_told`).
-/

namespace UniversalRemote

/-- If a report has room for a whole layout, there is a value for each of its places. -/
theorem ParameterList.atOffsets_of_fits {data : List UInt8} {layout : List (Nat × Nat)}
    (h : ∀ entry ∈ layout, entry.1 + entry.2 ≤ data.length) :
    atOffsets data layout = layout.map fun (offset, length) => (data.drop offset).take length := by
  rw [atOffsets, List.takeWhile_eq_self_iff.2 fun entry hentry => decide_eq_true (h entry hentry)]

namespace Z

open Exchange

/-! ## Times as values -/

/-- A time that a clock reading can tell: the day of the week has three bits, and a zero ends the
zone. -/
structure Tellable (t : DateTime) : Prop where
  weekday_le : t.weekday ≤ 7
  zone : '\x00' ∉ t.zone.toList

/-- The values of a time, but for its zone. -/
def clockValues (order : ByteOrder) (t : DateTime) : List (List UInt8) :=
  [order.bytes16 t.year, [t.month], [t.day], [t.hour], [t.minute], [t.second], [t.weekday],
    order.bytes16 t.offset.toUInt16]

/-- Bytes are those of a text, up to their end or to a zero that follows it. -/
def Spells (bytes : List UInt8) (text : String) : Prop :=
  ∃ tail : List UInt8, (∀ b ∈ tail.head?, b = 0) ∧ bytes = Utf8.encode text ++ tail

theorem Spells.decode {bytes : List UInt8} {text : String} (h : Spells bytes text)
    (hnul : '\x00' ∉ text.toList) : Utf8.decode (bytes.takeWhile (· != 0)) = text := by
  obtain ⟨tail, htail, rfl⟩ := h
  have hkept : ∀ b ∈ Utf8.encode text, (b != 0) = true := by
    intro b hb
    exact bne_iff_ne.2 fun hzero => Utf8.zero_notMem_encode hnul (hzero ▸ hb)
  have hdropped : tail.takeWhile (· != 0) = [] := by
    cases tail with
    | nil => rfl
    | cons b rest => exact List.takeWhile_cons_of_neg (by rw [htail b rfl]; decide)
  rw [List.takeWhile_append_of_pos hkept, hdropped, List.append_nil, Utf8.decode_encode]

theorem spells_nil_iff {text : String} : Spells [] text ↔ text = "" := by
  constructor
  · rintro ⟨tail, -, hnil⟩
    have hencode : Utf8.encode text = [] := (List.append_eq_nil_iff.1 hnil.symm).1
    rw [← Utf8.decode_encode text, hencode, Utf8.decode, Utf8.scalars]
  · rintro rfl
    have hencode : Utf8.encode "" = [] := Utf8.encode_eq_flatMap ""
    refine ⟨[], fun b hb => absurd hb (Option.not_mem_none b), ?_⟩
    rw [hencode, List.append_nil]

theorem weekday_and_seven {b : UInt8} (h : b ≤ 7) : b &&& 7 = b := by
  have hle : b.toNat ≤ 7 := UInt8.le_iff_toNat_le.1 h
  rw [← UInt8.toNat_inj, UInt8.toNat_and]
  show b.toNat &&& 7 = _
  rw [Nat.and_two_pow_sub_one_eq_mod _ 3]
  omega

section Decoder

variable {t : DateTime} {order : ByteOrder}

/-- The decoder has the time from its values, and the zone from the twelfth parameter. -/
theorem timeOf_clockValues (h : Tellable t) (rest : List (List UInt8)) :
    let p : ParameterList := ⟨order, clockValues order t ++ rest⟩
    timeOf p =
      (if 11 < p.values.length then p.text 11 else pure "").map ({ t with zone := · }) := by
  intro p
  have hyear : p.word 0 = .ok t.year := Parameter.isRead_of_bytes (v := .word t.year) trivial rfl
  have hoffset : p.word 7 = .ok t.offset.toUInt16 :=
    Parameter.isRead_of_bytes (v := .word t.offset.toUInt16) trivial rfl
  have hbytes : p.byte 1 = .ok t.month ∧ p.byte 2 = .ok t.day ∧ p.byte 3 = .ok t.hour ∧
      p.byte 4 = .ok t.minute ∧ p.byte 5 = .ok t.second ∧ p.byte 6 = .ok t.weekday :=
    ⟨rfl, rfl, rfl, rfl, rfl, rfl⟩
  obtain ⟨hmonth, hday, hhour, hminute, hsecond, hweekday⟩ := hbytes
  rw [timeOf, hyear, hmonth, hday, hhour, hminute, hsecond, hweekday, hoffset]
  dsimp only [bind, Except.bind]
  rw [weekday_and_seven h.weekday_le]
  by_cases hlong : 11 < p.values.length
  · simp only [if_pos hlong]
    cases p.text 11 <;> rfl
  · simp only [if_neg hlong]
    rfl

theorem timeOf_with_zone (h : Tellable t) {fillers : List (List UInt8)} {zone : List UInt8}
    (hfillers : fillers.length = 3) (hzone : Spells zone t.zone) :
    timeOf ⟨order, clockValues order t ++ (fillers ++ [zone])⟩ = .ok t := by
  obtain ⟨a, b, c, rfl⟩ := List.length_eq_three.1 hfillers
  rw [timeOf_clockValues h]
  show Except.ok { t with zone := Utf8.decode (zone.takeWhile (· != 0)) } = _
  rw [hzone.decode h.zone]

theorem timeOf_without_zone (h : Tellable t) (hzone : t.zone = "") :
    timeOf ⟨order, clockValues order t⟩ = .ok t := by
  have hvalues := @timeOf_clockValues t order h []
  rw [List.append_nil] at hvalues
  rw [hvalues]
  show Except.ok { t with zone := "" } = _
  rw [← hzone]

end Decoder

/-! ## Times in reports -/

/-- A report that counts its bytes is read up to what it counts. -/
theorem Response.ofDatagram_counted {data : List UInt8} (hlong : 4 ≤ data.length)
    (hcounted : data.length < 256) (padding : List UInt8) :
    Response.ofDatagram (UInt8.ofNat data.length :: (data ++ padding)) =
      (ParameterList.ofDatagram data).map (⟨data.getD 2 0, data.getD 3 0, ·⟩) := by
  have hcount : ((UInt8.ofNat data.length :: (data ++ padding)).headD 0).toNat = data.length :=
    Nat.mod_eq_of_lt hcounted
  have hdata : ((UInt8.ofNat data.length :: (data ++ padding)).drop 1).take data.length = data :=
    List.take_left' rfl
  have hfull : ¬ (data.length < 4 ∨
      (UInt8.ofNat data.length :: (data ++ padding)).length < data.length + 1) := by
    rw [List.length_cons, List.length_append]
    omega
  unfold Response.ofDatagram
  simp only [hcount, hdata, if_neg hfull]

/-- What a remote is free to choose in a report that tells a time. -/
structure ClockReport (t : DateTime) where
  flags : UInt8
  kind : UInt8
  gap : List UInt8
  zone : List UInt8
  /-- What stands behind the bytes that the report counts. -/
  padding : List UInt8
  length_gap : gap.length = 6
  spells : Spells zone t.zone
  /-- The report counts its bytes in one byte. In 64 bytes there is room for 42 of the zone and a
  zero. -/
  fits : 20 + zone.length < 256

namespace ClockReport

variable {t : DateTime} (r : ClockReport t)

/-- The bytes that the report counts. -/
def data : List UInt8 :=
  [r.flags, r.kind, 0x70, statusOk] ++ (clockValues .little t).flatten ++ r.gap ++ r.zone

def report : Report :=
  UInt8.ofNat r.data.length :: (r.data ++ r.padding)

theorem length_data : r.data.length = 20 + r.zone.length := by
  simp only [data, clockValues, List.length_append, List.length_flatten, List.map_cons,
    List.map_nil, List.sum_cons, List.sum_nil, List.length_cons, List.length_nil, ByteOrder.bytes16,
    ByteOrder.length_bytes, r.length_gap]
  omega

theorem length_report : r.report.length = 21 + r.zone.length + r.padding.length := by
  rw [report, List.length_cons, List.length_append, r.length_data]
  omega

/-- Where the layout says, there are the values of the time, and three that mean nothing. -/
theorem exists_fillers : ∃ fillers : List (List UInt8), fillers.length = 3 ∧
    ParameterList.atOffsets r.data ParameterList.clockLayout = clockValues .little t ++ fillers ∧
    r.data.drop ParameterList.zoneOffset = r.zone := by
  obtain ⟨a, b, hyear⟩ := List.length_eq_two.1 (ByteOrder.length_bytes .little 2 t.year.toNat)
  obtain ⟨c, d, hoffset⟩ :=
    List.length_eq_two.1 (ByteOrder.length_bytes .little 2 t.offset.toUInt16.toNat)
  obtain ⟨g₀, g₁, g₂, g₃, g₄, g₅, hgap⟩ :
      ∃ g₀ g₁ g₂ g₃ g₄ g₅, r.gap = [g₀, g₁, g₂, g₃, g₄, g₅] := by
    match r.gap, r.length_gap with
    | [g₀, g₁, g₂, g₃, g₄, g₅], _ => exact ⟨g₀, g₁, g₂, g₃, g₄, g₅, rfl⟩
  have hfits : ∀ entry ∈ ParameterList.clockLayout, entry.1 + entry.2 ≤ r.data.length := by
    rw [r.length_data]
    intro entry hentry
    have hend : entry.1 + entry.2 ≤ 20 := by
      revert entry
      decide
    exact Nat.le_add_right_of_le hend
  refine ⟨[[g₀, g₁], [g₂, g₃], [g₄, g₅]], rfl, ?_, ?_⟩
  · rw [ParameterList.atOffsets_of_fits hfits, data, hgap]
    simp only [clockValues, ByteOrder.bytes16, hyear, hoffset]
    rfl
  · rw [data, hgap]
    simp only [clockValues, ByteOrder.bytes16, hyear, hoffset]
    rfl

theorem exists_parameters (h : Tellable t) :
    ∃ p, ParameterList.ofDatagram r.data = .ok p ∧ timeOf p = .ok t := by
  obtain ⟨fillers, hfillers, hvalues, hzone⟩ := r.exists_fillers
  have hlist : ParameterList.ofDatagram r.data = if ParameterList.zoneOffset < r.data.length then
      .ok ⟨.little, ParameterList.atOffsets r.data ParameterList.clockLayout ++
        [r.data.drop ParameterList.zoneOffset]⟩
      else .ok ⟨.little, (ParameterList.atOffsets r.data ParameterList.clockLayout).take 8⟩ := rfl
  rw [hlist, hvalues, hzone, r.length_data]
  by_cases hnone : r.zone = []
  · have hshort : ¬ ParameterList.zoneOffset < 20 + r.zone.length := by
      rw [hnone]
      decide
    rw [if_neg hshort]
    exact ⟨_, rfl, timeOf_without_zone h (spells_nil_iff.1 (hnone ▸ r.spells))⟩
  · have hlong : ParameterList.zoneOffset < 20 + r.zone.length :=
      Nat.lt_add_of_pos_right (List.length_pos_iff.2 hnone)
    rw [if_pos hlong, List.append_assoc]
    exact ⟨_, rfl, timeOf_with_zone h hfillers r.spells⟩

theorem exists_response (h : Tellable t) : ∃ p,
    Response.ofDatagram r.report = .ok ⟨0x70, statusOk, p⟩ ∧ timeOf p = .ok t := by
  obtain ⟨p, hlist, htime⟩ := r.exists_parameters h
  refine ⟨p, ?_, htime⟩
  have hlength := r.length_data
  rw [report, Response.ofDatagram_counted (by omega) (by rw [hlength]; exact r.fits), hlist]
  rfl

end ClockReport

/-! ## Times in messages -/

/-- What a remote is free to choose in a message that tells a time. -/
structure ClockMessage (t : DateTime) where
  service : UInt8
  status : UInt8
  fillers : List (List UInt8)
  zone : List UInt8
  entries : List (List UInt8)
  padding : List UInt8
  /-- The top bit of the status does not count. -/
  carriedOut : status &&& 0x7F = statusOk
  length_fillers : fillers.length = 3
  spells : Spells zone t.zone
  /-- Each parameter has a length that a byte announces. -/
  encodes : List.Forall₂ ParameterWriter.Encodes entries
    (clockValues .big t ++ (fillers ++ [zone]))

namespace ClockMessage

variable {t : DateTime} (m : ClockMessage t)

def list : ParameterWriter :=
  ⟨.big, m.entries⟩

def report : Report :=
  [m.service, 0x70, m.status] ++ m.list.finish ++ m.padding

theorem exists_response (h : Tellable t) : ∃ p,
    Response.ofMessage m.report = .ok ⟨0x70, statusOk, p⟩ ∧ timeOf p = .ok t := by
  have hcount : m.entries.length = 12 := by
    rw [m.encodes.length_eq, List.length_append, List.length_append, m.length_fillers]
    rfl
  have hholds : m.list.Holds (clockValues .big t ++ (m.fillers ++ [m.zone])) := by
    refine ⟨m.encodes, ?_⟩
    show m.entries.length < 256
    omega
  have hlist := hholds.parse [m.service, 0x70, m.status] m.padding .big
  refine ⟨⟨.big, _⟩, ?_, timeOf_with_zone h m.length_fillers m.spells⟩
  have hmessage : Response.ofMessage m.report =
      (ParameterList.parse m.report 3 .big).map (⟨0x70, m.status &&& 0x7F, ·⟩) := rfl
  rw [hmessage, m.carriedOut, report]
  exact congrArg (Except.map _) hlist

end ClockMessage

/-! ## Readings -/

/-- A clock is read in two turns, a request and an answer that tells the time. -/
theorem yields_readClock {link : Link} {request : Report}
    {answer : Report → Except ProtocolError Response}
    (hrequest : link.request 0x70 link.none promptWait = (do
      send request
      check (answer (← receive promptWait))))
    {report : Report} {p : ParameterList} {t : DateTime}
    (hanswer : answer report = .ok ⟨0x70, statusOk, p⟩) (htime : timeOf p = .ok t) :
    (readClock link).Yields [.say request, .hear report] t := by
  have hresponse : (link.request 0x70 link.none promptWait).Yields
      [.say request, .hear report] ⟨0x70, statusOk, p⟩ := by
    rw [hrequest]
    refine yields_bind.2 ⟨(), [.say request], [.hear report], rfl, yields_send.2 rfl, ?_⟩
    exact yields_bind.2 ⟨report, [.hear report], [], rfl, yields_receive.2 rfl,
      yields_check.2 ⟨rfl, hanswer⟩⟩
  have hask : (link.ask 0x70 link.none promptWait "reading the clock").Yields
      [.say request, .hear report] p :=
    yields_bind.2 ⟨_, _, [], rfl, hresponse, yields_pure.2 ⟨rfl, rfl⟩⟩
  exact yields_bind.2 ⟨p, _, [], rfl, hask, yields_check.2 ⟨rfl, htime⟩⟩

/-- Whichever way a remote tells a time, in a report or in a message, and whatever it puts where
nothing is meant, the host has that time. -/
theorem readClock_told (t : DateTime) (h : Tellable t) {σ : Type} (device : Device σ) (s u : σ) :
    (∀ r : ClockReport t, device.Plays [.say (datagram 0x70 []), .hear r.report] s u →
      (readClock hidLink).ending device s = (.ok t, u)) ∧
    (∀ m : ClockMessage t, device.Plays [.say [0x20, 0x70, 0x80, 0], .hear m.report] s u →
      (readClock netLink).ending device s = (.ok t, u)) := by
  constructor
  · intro r hplays
    obtain ⟨p, hanswer, htime⟩ := r.exists_response h
    have hyields : (readClock hidLink).Yields _ t := yields_readClock rfl hanswer htime
    exact hyields.ending hplays
  · intro m hplays
    obtain ⟨p, hanswer, htime⟩ := m.exists_response h
    have hyields : (readClock netLink).Yields _ t := yields_readClock rfl hanswer htime
    exact hyields.ending hplays

/-- The longest zone that a report of 64 bytes has room for, and a report that ends where a zone
would begin. -/
theorem readClock_told_longest_zone :
    let t : DateTime := ⟨65535, 2, 29, 23, 59, 60, 7, -570, String.ofList (List.replicate 42 'Z')⟩
    let plain : DateTime := { t with zone := "" }
    ∃ (r : ClockReport t) (m : ClockMessage t) (bare : ClockReport plain),
      r.report.length = 64 ∧ bare.report.length = 21 ∧ Tellable t ∧ Tellable plain ∧
      ((readClock hidLink).ending Script.device { reads := [.report r.report] }).1 = .ok t ∧
      ((readClock netLink).ending Script.device { reads := [.report m.report] }).1 = .ok t ∧
      ((readClock hidLink).ending Script.device { reads := [.report bare.report] }).1 =
        .ok plain := by
  intro t plain
  have htellable : Tellable t := ⟨by decide, by decide⟩
  have hplain : Tellable plain := ⟨by decide, by decide⟩
  have hzone : (Utf8.encode t.zone).length = 42 := by
    rw [Utf8.length_encode]
    decide
  let r : ClockReport t :=
    { flags := 0, kind := 1, gap := List.replicate 6 0xFF, zone := Utf8.encode t.zone ++ [0]
      padding := [], length_gap := rfl, spells := ⟨[0], fun _ h => (Option.some.inj h).symm, rfl⟩
      fits := by rw [List.length_append, hzone]; decide }
  let bare : ClockReport plain :=
    { flags := 0, kind := 1, gap := List.replicate 6 0xFF, zone := [], padding := []
      length_gap := rfl, spells := spells_nil_iff.2 rfl, fits := by decide }
  let m : ClockMessage t :=
    { service := 0x20, status := 0x81, fillers := [[], [0xFF], [0, 0, 0]]
      zone := Utf8.encode t.zone
      entries := (List.zipWith List.cons [2, 1, 1, 1, 1, 1, 1, 2] (clockValues .big t)) ++
        [[0], [1, 0xFF], [3, 0, 0, 0], 42 :: Utf8.encode t.zone]
      padding := [0xEE], carriedOut := by decide, length_fillers := rfl
      spells := ⟨[], nofun, (List.append_nil _).symm⟩
      encodes := by
        simp [clockValues, ParameterWriter.Encodes, ByteOrder.bytes16, hzone]
        decide }
  have hlength : r.report.length = 64 := by
    rw [r.length_report, List.length_append, hzone]
    rfl
  refine ⟨r, m, bare, hlength, rfl, htellable, hplain, ?_, ?_, ?_⟩
  · exact congrArg Prod.fst
      ((readClock_told t htellable Script.device _ _).1 r ⟨_, rfl, _, fun _ => rfl, rfl⟩)
  · exact congrArg Prod.fst
      ((readClock_told t htellable Script.device _ _).2 m ⟨_, rfl, _, fun _ => rfl, rfl⟩)
  · exact congrArg Prod.fst
      ((readClock_told plain hplain Script.device _ _).1 bare ⟨_, rfl, _, fun _ => rfl, rfl⟩)

end Z

end UniversalRemote
