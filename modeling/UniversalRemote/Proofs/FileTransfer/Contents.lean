import UniversalRemote.Proofs.FileTransfer.Reading
import UniversalRemote.Proofs.Z.Marker
/-!
# The contents of a file

A file that was fetched consists of what its data packets carry, and a configuration of that and an
end marker. Two things are left to the remote. A marker is only added to a configuration without
one, so that the configuration need not end with a marker if it has one further in front
(`fetchFile_config_marker_inside`). And the first data packet may have any number, since the host
only learns from it how the others are numbered (`fetchFile_control_as_contents`).
-/

namespace UniversalRemote.FileTransfer

open Exchange

/-! ## End markers -/

section Marker

variable {contents : List UInt8}

theorem withMarker_marked (h : endMarker <:+: contents) : withMarker contents = contents := by
  refine if_pos (Option.isSome_iff_ne_none.2 ?_)
  exact mt markerStop_eq_none_iff.1 (not_not.2 h)

theorem withMarker_unmarked (h : ¬ endMarker <:+: contents) :
    withMarker contents = contents ++ endMarker := by
  rw [withMarker, markerStop_eq_none_iff.2 h]
  rfl

/-- Contents that end with a marker: one is added to those that do not. -/
def terminated (contents : List UInt8) : List UInt8 :=
  if endMarker <:+ contents then contents else contents ++ endMarker

theorem suffix_terminated (contents : List UInt8) : endMarker <:+ terminated contents := by
  unfold terminated
  split
  · assumption
  · exact List.suffix_append _ _

/-- With a marker, contents end with it unless the only markers are further in front. -/
theorem withMarker_eq_terminated_iff :
    withMarker contents = terminated contents ↔
      (endMarker <:+: contents → endMarker <:+ contents) := by
  by_cases hinfix : endMarker <:+: contents
  · rw [withMarker_marked hinfix]
    refine ⟨fun h _ => ?_, fun h => (if_pos (h hinfix)).symm⟩
    rw [h]
    exact suffix_terminated contents
  · have hsuffix : ¬ endMarker <:+ contents := fun h => hinfix h.isInfix
    rw [withMarker_unmarked hinfix, terminated, if_neg hsuffix]
    exact ⟨fun _ h => absurd h hinfix, fun _ => rfl⟩

theorem suffix_withMarker_iff :
    endMarker <:+ withMarker contents ↔ (endMarker <:+: contents → endMarker <:+ contents) := by
  by_cases hinfix : endMarker <:+: contents
  · rw [withMarker_marked hinfix]
    exact ⟨fun h _ => h, fun h => h hinfix⟩
  · rw [withMarker_unmarked hinfix]
    exact ⟨fun _ h => absurd h hinfix, fun _ => List.suffix_append _ _⟩

end Marker

/-! ## Runs -/

theorem utf8ByteSize_le_of_yields {name : String} {start : UInt8} {stage : Stage}
    {dialogue : List Turn} {data : List UInt8} (h : (fetch name start stage).Yields dialogue data) :
    name.utf8ByteSize ≤ 55 := by
  by_contra hlong
  rw [fetch, admitName, if_pos (Nat.not_le.1 hlong)] at h
  obtain ⟨_, _, _, _, hrefuse, _⟩ := yields_bind.1 h
  exact not_yields_throw hrefuse

def IsData (report : Report) : Prop :=
  report.getD 0 0 < 0x40

instance (report : Report) : Decidable (IsData report) :=
  inferInstanceAs (Decidable (_ < _))

/-- The number of data packets that the answer to an open request announces. -/
def dataPackets (opening : Report) : Nat :=
  (ByteOrder.big.value ((opening.drop 7).take 4) + 61) / 62

namespace Reading

variable {r : Reading} {name : String}

def contents (r : Reading) (name : String) : List UInt8 :=
  if name = configName then withMarker r.data else r.data

theorem exists_of_run {device : Device σ} {state : σ} {data : List UInt8}
    (h : ((fetchFile name).run.run device state).result = .ok data) :
    ∃ r : Reading, r.Valid ∧
      ((fetchFile name).run.run device state).trace.filterMap Step.received? = r.reports ∧
      data = r.contents name := by
  have htakes := Program.takes_run (fetchFile name).run device state
  rw [h] at htakes
  obtain ⟨fetched, dialogue, _, hdialogue, hfetch, hpure⟩ := yields_bind.1 htakes
  obtain ⟨rfl, hcontents⟩ := yields_pure.1 hpure
  obtain ⟨r, hvalid, rfl, rfl⟩ :=
    exists_of_yields_fetch (utf8ByteSize_le_of_yields hfetch) 0 hfetch
  have hheard := r.hears_dialogue 0 name
  rw [List.append_nil] at hdialogue
  rw [← hdialogue] at hheard
  exact ⟨r, hvalid, hheard.filterMap_received?, hcontents.symm⟩

theorem Valid.isData (h : r.Valid) {i : Nat} (hi : 0 < i) {packet : Report}
    (hpacket : r.packets[i]? = some packet) : IsData packet := by
  have hnumber := h.numbered i packet hi hpacket
  have hlt : (packet.getD 0 0).toNat < 64 := hnumber ▸ Nat.mod_lt _ (by decide)
  exact UInt8.lt_iff_toNat_lt.2 hlt

theorem Valid.forall_isData_iff (h : r.Valid) :
    (∀ packet ∈ r.packets, IsData packet) ↔ ∀ packet ∈ r.packets.head?, IsData packet := by
  refine ⟨fun hall packet hfirst => hall packet (List.mem_of_mem_head? hfirst), ?_⟩
  intro hfirst packet hpacket
  obtain ⟨i, hi⟩ := List.mem_iff_getElem?.1 hpacket
  rcases Nat.eq_zero_or_pos i with rfl | hpos
  · rw [← List.head?_eq_getElem?] at hi
    exact hfirst packet hi
  · exact h.isData hpos hi

theorem Valid.getElem?_reports (h : r.Valid) {i : Nat} (hi : i < r.packets.length) :
    r.reports[2 + i + i / 50]? = r.packets[i]? := by
  -- two answers stand in front of the stream, and one more in it behind every fifty packets
  have hplace : 2 + i + i / 50 = i + i / 50 + 1 + 1 := by omega
  have hstream : i + i / 50 < r.stream.length := by
    rw [h.stream_length, pauses]
    omega
  rw [hplace, reports, List.getElem?_cons_succ, List.getElem?_cons_succ,
    List.getElem?_append_left hstream]
  exact h.stream i hi

end Reading

/-- A configuration that was fetched consists of the bytes that were received, and of an end marker
where they have none. It ends with a marker, and is what was received with a marker at its end,
exactly if those bytes end with a marker as soon as they have one. -/
theorem fetchFile_config (device : Device σ) (state : σ) (config : List UInt8)
    (hresult : ((fetchFile configName).run.run device state).result = .ok config) :
    ∃ r : Reading, r.Valid ∧
      ((fetchFile configName).run.run device state).trace.filterMap Step.received? = r.reports ∧
      config = (if endMarker <:+: r.data then r.data else r.data ++ endMarker) ∧
      (endMarker <:+ config ↔ (endMarker <:+: r.data → endMarker <:+ r.data)) ∧
      (config = terminated r.data ↔ (endMarker <:+: r.data → endMarker <:+ r.data)) := by
  obtain ⟨r, hvalid, hreceived, rfl⟩ := Reading.exists_of_run hresult
  have hcontents : r.contents configName = withMarker r.data := if_pos rfl
  rw [hcontents]
  refine ⟨r, hvalid, hreceived, ?_, suffix_withMarker_iff, withMarker_eq_terminated_iff⟩
  split
  · exact withMarker_marked ‹_›
  · exact withMarker_unmarked ‹_›

/-- Three bytes, and the marker behind them. -/
theorem fetchFile_config_three_bytes :
    let s : Script := { reads := [.report [0xFF, 0x01, 0x00, 0x02, 0x01, 0x2A, 0x04, 0, 0, 0, 3],
      .report [0xFF], .report [0x00, 0x03, 0x01, 0x02, 0x03], .report []] }
    let run := (fetchFile configName).run.run Script.device s
    let config := [0x01, 0x02, 0x03, 0x44, 0x4B, 0x44, 0x4B]
    run.result = .ok config ∧
      ∃ r : Reading, r.Valid ∧ run.trace.filterMap Step.received? = r.reports ∧
        config = (if endMarker <:+: r.data then r.data else r.data ++ endMarker) ∧
        (endMarker <:+ config ↔ (endMarker <:+: r.data → endMarker <:+ r.data)) ∧
        (config = terminated r.data ↔ (endMarker <:+: r.data → endMarker <:+ r.data)) := by
  intro s run config
  have hresult : run.result = .ok config := rfl
  exact ⟨hresult, fetchFile_config Script.device s config hresult⟩

/-- A marker in front of one more byte is all that a configuration gets. -/
theorem fetchFile_config_marker_inside :
    let s : Script := { reads := [.report [0xFF, 0x01, 0x00, 0x02, 0x01, 0x2A, 0x04, 0, 0, 0, 5],
      .report [0xFF], .report [0x00, 0x05, 0x44, 0x4B, 0x44, 0x4B, 0x01], .report []] }
    ((fetchFile configName).run.run Script.device s).result = .ok (endMarker ++ [0x01]) ∧
      ¬ endMarker <:+ endMarker ++ [0x01] :=
  ⟨rfl, by decide⟩

/-- A file consists of what its data packets carry. All of them but the first have the number of a
data packet, so that all have if the first has. A report without one in the place of another packet
ends the transfer without a file. -/
theorem fetchFile_packets (name : String) (device : Device σ) (state : σ) :
    let run := (fetchFile name).run.run device state
    let received := run.trace.filterMap Step.received?
    (∀ data, run.result = .ok data → ∃ r : Reading, r.Valid ∧ received = r.reports ∧
      data = r.contents name ∧ (∀ i packet, 0 < i → r.packets[i]? = some packet → IsData packet) ∧
      ((∀ packet ∈ r.packets, IsData packet) ↔ ∀ packet ∈ r.packets.head?, IsData packet)) ∧
    ∀ i report, 0 < i → i < dataPackets (received.headD []) →
      received[2 + i + i / 50]? = some report → ¬ IsData report →
        ∃ halt, run.result = .error halt := by
  intro run received
  constructor
  · intro data hresult
    obtain ⟨r, hvalid, hreceived, hdata⟩ := Reading.exists_of_run hresult
    exact ⟨r, hvalid, hreceived, hdata, fun i packet hi => hvalid.isData hi,
      hvalid.forall_isData_iff⟩
  · intro i report hi hplace hreport hnot
    cases hresult : run.result with
    | error halt => exact ⟨halt, rfl⟩
    | ok data =>
      -- with an answer the report would be one of the packets, and these are numbered
      obtain ⟨r, hvalid, hreceived, -⟩ := Reading.exists_of_run hresult
      have hlt : i < r.packets.length := by
        rw [show received = r.reports from hreceived] at hplace
        rw [hvalid.packets]
        exact hplace
      have hpacket : r.packets[i]? = some report := by
        rw [← hvalid.getElem?_reports hlt, ← hreceived]
        exact hreport
      exact absurd (hvalid.isData hi hpacket) hnot

/-- A file in one packet, and one whose second packet turns out to be a control packet. -/
theorem fetchFile_packets_second :
    let file := (fetchFile "/f").run.run Script.device
      { reads := [.report [0xFF, 0x01, 0x00, 0x02, 0x01, 0x2A, 0x04, 0, 0, 0, 3], .report [0xFF],
        .report [0x3F, 0x03, 0x01, 0x02, 0x03], .report []] }
    let broken := (fetchFile "/f").run.run Script.device
      { reads := [.report [0xFF, 0x01, 0x00, 0x02, 0x01, 0x2A, 0x04, 0, 0, 0, 63], .report [0xFF],
        .report [0x3F, 0x01, 0x5A], .report [0xFF, 0x03, 0x01, 0x02, 0x03]] }
    (file.result = .ok [0x01, 0x02, 0x03] ∧ ∃ r : Reading, r.Valid ∧
      file.trace.filterMap Step.received? = r.reports ∧ [0x01, 0x02, 0x03] = r.contents "/f" ∧
      ((∀ packet ∈ r.packets, IsData packet) ↔ ∀ packet ∈ r.packets.head?, IsData packet)) ∧
    ∃ halt, broken.result = .error halt := by
  intro file broken
  have hresult : file.result = .ok [0x01, 0x02, 0x03] := rfl
  obtain ⟨r, hvalid, hreceived, hdata, -, hfirst⟩ :=
    (fetchFile_packets "/f" Script.device _).1 _ hresult
  refine ⟨⟨hresult, r, hvalid, hreceived, hdata, hfirst⟩, ?_⟩
  exact (fetchFile_packets "/f" Script.device _).2 1 [0xFF, 0x03, 0x01, 0x02, 0x03] (by decide)
    (by decide) rfl (by decide)

/-- A control packet in the place of the first data packet is taken for data. -/
theorem fetchFile_control_as_contents :
    let control : Report := [0xFF, 0x03, 0x01, 0x02, 0x03]
    let run := (fetchFile "/f").run.run Script.device
      { reads := [.report [0xFF, 0x01, 0x00, 0x02, 0x01, 0x2A, 0x04, 0, 0, 0, 3],
        .report [0xFF], .report control, .report []] }
    run.result = .ok (payload control) ∧ control ∈ run.trace.filterMap Step.received? ∧
      ¬ IsData control := by
  intro control run
  exact ⟨rfl, by decide, by decide⟩

end UniversalRemote.FileTransfer
