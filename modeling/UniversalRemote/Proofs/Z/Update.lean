import Mathlib.Data.List.Induction
import UniversalRemote.Proofs.Link.Ensures
import UniversalRemote.Proofs.Parameter.ReadBack
import UniversalRemote.Z.Net
/-!
# What an update has come to

What has been announced, written and answered of an update is read off the steps taken, in the same
way for packets of a stream and for messages over a network (`Wire`). `Wire.Confirmed` says when an
update may be finished, and `Wire.Installs` that a run keeps to it.
-/

namespace UniversalRemote.Z

open Exchange

/-! ## Requests and answers on the way -/

/-- What an answer says: the command that is answered, its status and the word that its bytes begin
with. -/
structure Answer where
  command : UInt8
  status : UInt8
  word : Option UInt16

/-- How requests and answers travel. -/
structure Wire where
  order : ByteOrder
  /-- The command in a report, and the bytes of its parameters. -/
  request : Report → Option (UInt8 × List UInt8)
  answer : Report → Option Answer

/-- Packets of a stream; those that only acknowledge carry no request. -/
def Wire.packets : Wire where
  order := .little
  request report :=
    match report.take ((report.headD 0).toNat + 1) with
    | _ :: _ :: _ :: _ :: _ :: command :: parameters => some (command, parameters)
    | _ => none
  answer report :=
    match Packet.ofReport report with
    | .ok ⟨_, some command, status, body⟩ =>
      some ⟨command, status, if body.length < 2 then none else some (ByteOrder.little.word16 body)⟩
    | _ => none

def Wire.messages : Wire where
  order := .big
  request message :=
    match message, ParameterList.ofNetwork message with
    | _ :: command :: _, .ok parameters => some (command, parameters.values.flatten)
    | _, _ => none
  answer message :=
    match Response.ofMessage message with
    | .ok response => some ⟨response.command, response.status, (response.parameters.word 0).toOption⟩
    | .error _ => none

namespace Wire

variable (w : Wire)

/-- The bytes of an image that a report brings. -/
def pieceOf (report : Report) : List UInt8 :=
  match w.request report with
  | some (command, piece) => if command = 0x43 then piece else []
  | none => []

/-- The bytes of an image that have been written, in order. -/
def delivered (past : List Step) : List UInt8 :=
  (past.filterMap Step.written?).flatMap w.pieceOf

/-- A header with the length and the region of an image has been written. -/
def Announced (image : Image) (past : List Step) : Prop :=
  ∃ report ∈ past.filterMap Step.written?, ∃ parameters, w.request report = some (0x42, parameters) ∧
    w.order.value (parameters.take 4) = image.data.length ∧
    parameters.drop 4 = [image.region.code]

/-- A request was written and then, before any other one, an answer read that says that it was
carried out. -/
def Answered (past : List Step) (command : UInt8) (word : Option UInt16) : Prop :=
  ∃ before report between timeout received after parameters,
    past = before ++ .wrote report (.ok ()) :: (between ++ .read timeout (.ok received) :: after) ∧
    w.request report = some (command, parameters) ∧
    (∀ other ∈ between.filterMap Step.written?, w.request other = none) ∧
    w.answer received = some ⟨command, statusOk, word⟩

/-- An update may be finished. -/
structure Confirmed (image : Image) (past : List Step) : Prop where
  announced : w.Announced image past
  delivered : w.delivered past = image.data
  ended : ∃ word, w.Answered past 0x44 word
  checked : w.Answered past 0x45 (some (imageChecksum image.data))

/-- An update is finished only where it may be, what is written of it is the front of its image at
every moment, and it succeeds only if the remote has finished it. -/
structure Installs (image : Image) (run : Run σ (Except (Halt RemoteError) Unit)) : Prop where
  finishes : ∀ before report outcome after parameters,
    run.trace = before ++ .wrote report outcome :: after →
    w.request report = some (0x46, parameters) → w.Confirmed image before
  front : ∀ before, before <+: run.trace → w.delivered before <+: image.data
  finished : run.result = .ok () → ∃ word, w.Answered run.trace 0x46 word

/-- What may be written of an update behind some steps. -/
structure Admits (image : Image) (past : List Step) (report : Report) : Prop where
  finish : ∀ parameters, w.request report = some (0x46, parameters) → w.Confirmed image past
  piece : w.pieceOf report ≠ [] → w.delivered past ++ w.pieceOf report <+: image.data

def Silent (report : Report) : Prop :=
  w.request report = none

/-! ## What stays behind further steps -/

variable {w} {image : Image} {past later : List Step}

theorem delivered_append (past more : List Step) :
    w.delivered (past ++ more) = w.delivered past ++ w.delivered more := by
  simp [delivered]

theorem delivered_wrote (report : Report) (outcome : Except LinkError Unit) :
    w.delivered (past ++ [.wrote report outcome]) = w.delivered past ++ w.pieceOf report := by
  simp [delivered]

theorem delivered_read (timeout : Nat) (outcome : Except LinkError Report) :
    w.delivered (past ++ [.read timeout outcome]) = w.delivered past := by
  rw [delivered_append]
  exact List.append_nil _

theorem delivered_told (event : Event) :
    w.delivered (past ++ [.told event]) = w.delivered past := by
  rw [delivered_append]
  exact List.append_nil _

theorem delivered_of_quiet (h : Program.Quiet w.Silent past later) :
    w.delivered later = w.delivered past := by
  obtain ⟨more, rfl, hmore⟩ := h
  have hnone : w.delivered more = [] := by
    refine List.flatMap_eq_nil_iff.2 fun report hreport => ?_
    have hsilent : w.request report = none := hmore report hreport
    simp [pieceOf, hsilent]
  rw [delivered_append, hnone, List.append_nil]

theorem quiet_prefix {harmless : Report → Prop} (h : Program.Quiet harmless past later) :
    past <+: later := by
  obtain ⟨more, rfl, -⟩ := h
  exact List.prefix_append past more

theorem Announced.mono (h : w.Announced image past) (hlater : past <+: later) :
    w.Announced image later := by
  obtain ⟨report, hreport, hrest⟩ := h
  obtain ⟨more, rfl⟩ := hlater
  refine ⟨report, ?_, hrest⟩
  rw [List.filterMap_append]
  exact List.mem_append_left _ hreport

theorem Answered.mono {command : UInt8} {word : Option UInt16} (h : w.Answered past command word)
    (hlater : past <+: later) : w.Answered later command word := by
  obtain ⟨before, report, between, timeout, received, after, parameters, rfl, hrest⟩ := h
  obtain ⟨more, rfl⟩ := hlater
  exact ⟨before, report, between, timeout, received, after ++ more, parameters, by simp, hrest⟩

theorem admits_of_silent {report : Report} (h : w.Silent report) : w.Admits image past report := by
  have hsilent : w.request report = none := h
  refine ⟨fun parameters hfinish => ?_, fun hpiece => ?_⟩
  · rw [hsilent] at hfinish
    cases hfinish
  · exact absurd (by simp [pieceOf, hsilent]) hpiece

theorem admits_of_request {report : Report} {command : UInt8} {parameters : List UInt8}
    (h : w.request report = some (command, parameters)) (hpiece : command ≠ 0x43)
    (hfinish : command = 0x46 → w.Confirmed image past) : w.Admits image past report := by
  refine ⟨fun parameters' hreport => ?_, fun hne => ?_⟩
  · rw [h] at hreport
    cases hreport
    exact hfinish rfl
  · exact absurd (by simp [pieceOf, h, hpiece]) hne

theorem admits_of_piece {report : Report} {piece : List UInt8}
    (h : w.request report = some (0x43, piece))
    (hfront : w.delivered past ++ piece <+: image.data) : w.Admits image past report := by
  refine ⟨fun parameters hreport => ?_, fun _ => ?_⟩
  · rw [h] at hreport
    cases hreport
  · simpa [pieceOf, h] using hfront

theorem front_of_obeys {trace : List Step} (h : Program.Obeys (w.Admits image) [] trace) :
    ∀ before, before <+: trace → w.delivered before <+: image.data := by
  intro before
  -- from the last step backwards: each request was allowed behind all that stands before it
  induction before using List.reverseRecOn with
  | nil => exact fun _ => List.nil_prefix
  | append_singleton before step ih =>
    intro hbefore
    obtain ⟨after, htrace⟩ := hbefore
    have hfront : w.delivered before <+: image.data := ih ⟨step :: after, by simpa using htrace⟩
    cases step with
    | read timeout outcome => rwa [delivered_read]
    | told event => rwa [delivered_told]
    | wrote report outcome =>
      rw [delivered_wrote]
      have hadmits := h before report outcome after (by simpa using htrace.symm)
      by_cases hpiece : w.pieceOf report = []
      · rwa [hpiece, List.append_nil]
      · simpa using hadmits.piece hpiece

theorem installs_of_ensures {x : Exchange RemoteError Unit}
    (h : x.Ensures (w.Admits image) (fun later _ => ∃ word, w.Answered later 0x46 word) [])
    (device : Device σ) (state : σ) : w.Installs image (x.run.run device state) := by
  obtain ⟨hpost, hobeys⟩ := Program.Ensures.run h device state
  refine ⟨?_, front_of_obeys hobeys, hpost ()⟩
  intro before report outcome after parameters htrace hfinish
  exact (hobeys before report outcome after htrace).finish parameters hfinish

/-! ## Requests that are carried out -/

/-- A request was written, and the next report says that it was carried out. -/
def Called (w : Wire) (past : List Step) (command : UInt8) (parameters : List UInt8)
    (later : List Step) (word : Option UInt16) : Prop :=
  ∃ report timeout received, w.request report = some (command, parameters) ∧
    w.answer received = some ⟨command, statusOk, word⟩ ∧
    later = past ++ [.wrote report (.ok ())] ++ [.read timeout (.ok received)]

section Called

variable {command : UInt8} {parameters : List UInt8} {word : Option UInt16}

theorem Called.le (h : w.Called past command parameters later word) : past <+: later := by
  obtain ⟨report, timeout, received, -, -, rfl⟩ := h
  exact prefix_snoc (List.prefix_append past _) _

theorem Called.answered (h : w.Called past command parameters later word) :
    w.Answered later command word := by
  obtain ⟨report, timeout, received, hrequest, hanswer, rfl⟩ := h
  exact ⟨past, report, [], timeout, received, [], parameters, by simp, hrequest, by simp, hanswer⟩

theorem Called.delivered (h : w.Called past command parameters later word) :
    w.delivered later = w.delivered past ++ if command = 0x43 then parameters else [] := by
  obtain ⟨report, timeout, received, hrequest, -, rfl⟩ := h
  rw [delivered_read, delivered_wrote]
  simp only [pieceOf, hrequest]

theorem Called.announced (h : w.Called past 0x42 parameters later word)
    (hlength : w.order.value (parameters.take 4) = image.data.length)
    (hregion : parameters.drop 4 = [image.region.code]) : w.Announced image later := by
  obtain ⟨report, timeout, received, hrequest, -, rfl⟩ := h
  exact ⟨report, by simp, parameters, hrequest, hlength, hregion⟩

end Called

theorem header_announces (order : ByteOrder) {length : Nat} (h : length < 0x100000000)
    (region : UInt8) :
    order.value ((order.bytes 4 length ++ [region]).take 4) = length ∧
      (order.bytes 4 length ++ [region]).drop 4 = [region] := by
  have hfour : (order.bytes 4 length).length = 4 := order.length_bytes 4 length
  have htake : (order.bytes 4 length ++ [region]).take 4 = order.bytes 4 length := by
    rw [List.take_append_of_le_length (by omega), List.take_of_length_le (by omega)]
  have hdrop : (order.bytes 4 length ++ [region]).drop 4 = [region] := by
    exact List.drop_left' hfour
  refine ⟨?_, hdrop⟩
  rw [htake, ByteOrder.value_bytes]
  exact Nat.mod_eq_of_lt h

end Wire

end UniversalRemote.Z
