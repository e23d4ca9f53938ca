import UniversalRemote.Proofs.FileTransfer.Reading
import UniversalRemote.Proofs.Remote.Terms
/-!
# Where a machine word is left

Two operations count further from what a remote tells them: a clock of words has its day and month
counted from zero and its year from 2000, and a stored configuration takes up its end marker as well.
The sums leave their words for a few values at the upper end, and the operations end in an overflow
exactly where a remote tells one of those: `Remote.overflow_iff_limits`. In every other dialogue they
have an answer or report a failure.
-/

namespace UniversalRemote

open Exchange

/-! ## Exchanges -/

/-- What is written is of a kind, and the end is an answer or a failure that is reported. -/
def Terms.regular (writes : Report → Prop) : Terms where
  writes := writes
  ends halt := ∃ cause, halt = .failed cause
  ends_protocol _ _ := ⟨_, rfl⟩

/-- The patience of the host is not used up. -/
def Terms.patient : Terms where
  writes _ := True
  ends := (· ≠ .stalled)
  ends_protocol _ _ := nofun

namespace Exchange

variable {dialogue : List Turn} {writes : Report → Prop}

theorem Within.not_overflow {x : Exchange RemoteError α} (h : x.Within (.regular writes)) :
    ¬ x.run.Takes dialogue (.error .overflow) := by
  intro hx
  obtain ⟨cause, hcause⟩ := (h.said (fun cause => ⟨_, rfl⟩) hx).1 _ rfl
  cases hcause

/-- Where the first of two exchanges is regular, it has an answer before there is an overflow. -/
theorem takes_bind_overflow {x : Exchange RemoteError α} (hx : x.Within (.regular writes))
    {f : α → Exchange RemoteError β} :
    (x >>= f).run.Takes dialogue (.error .overflow) ↔
      ∃ a first rest, dialogue = first ++ rest ∧ x.Yields first a ∧
        (f a).run.Takes rest (.error .overflow) := by
  rw [takes_bind]
  refine or_iff_right ?_
  rintro ⟨_, htakes, hhalt⟩
  cases hhalt
  exact hx.not_overflow htakes

theorem takes_ofChecked_overflow {value : Option α} :
    (ofChecked value : Exchange ε α).run.Takes dialogue (.error .overflow) ↔
      dialogue = [] ∧ value = none := by
  cases value with
  | none => exact ⟨fun h => ⟨h.1, rfl⟩, fun h => ⟨h.1, rfl⟩⟩
  | some a => exact ⟨fun h => (nomatch h.2), fun h => (nomatch h.2)⟩

end Exchange

/-! ## Clocks of words -/

namespace Classic

variable {dialogue : List Turn}

/-- A remote tells the words of one of its memories, from an address on. -/
inductive WordsTold (space : UInt8) : UInt16 → List UInt16 → List Turn → Prop
  | none (address : UInt16) : WordsTold space address [] []
  | word {address : UInt16} {words : List UInt16} {rest : List Turn} (code high low : UInt8)
      (extra : List UInt8) (hcode : kind code = 0xC0)
      (hrest : WordsTold space (address + 1) words rest) :
      WordsTold space address (ByteOrder.big.word16 [high, low] :: words)
        (.say (0xB3 :: space :: ByteOrder.big.bytes16 address) ::
          .hear (code :: space :: high :: low :: extra) :: rest)

theorem yields_receivePacket {timeout : Nat} {packet : UInt8 × List UInt8} :
    (receivePacket timeout).Yields dialogue packet ↔
      dialogue = [.hear (packet.1 :: packet.2)] := by
  rw [receivePacket, yields_bind]
  constructor
  · rintro ⟨report, first, rest, rfl, hreceive, hrest⟩
    obtain rfl := yields_receive.1 hreceive
    cases report with
    | nil => exact absurd hrest not_yields_throw
    | cons code body =>
      obtain ⟨rfl, rfl⟩ := yields_pure.1 hrest
      rfl
  · rintro rfl
    exact ⟨packet.1 :: packet.2, _, [], rfl, yields_receive.2 rfl, yields_pure.2 ⟨rfl, rfl⟩⟩

theorem yields_readWords_succ {space : UInt8} {count : Nat} {address : UInt16}
    {words : List UInt16} :
    (readWords space address (count + 1)).Yields dialogue words ↔
      ∃ code high low extra rest later, kind code = 0xC0 ∧
        dialogue = .say (0xB3 :: space :: ByteOrder.big.bytes16 address) ::
          .hear (code :: space :: high :: low :: extra) :: rest ∧
        words = ByteOrder.big.word16 [high, low] :: later ∧
        (readWords space (address + 1) count).Yields rest later := by
  rw [readWords]
  constructor
  · intro h
    obtain ⟨_, _, _, rfl, hsend, hbehind⟩ := yields_bind.1 h
    obtain ⟨⟨code, body⟩, _, _, rfl, hreceive, hanswered⟩ := yields_bind.1 hbehind
    obtain rfl := yields_send.1 hsend
    obtain rfl := yields_receivePacket.1 hreceive
    dsimp only at hanswered
    split at hanswered
    · split at hanswered
      · exact absurd hanswered not_yields_throw
      · rename_i answered high low extra hexpected
        obtain ⟨hcode, rfl⟩ : kind code = 0xC0 ∧ answered = space := by simpa using hexpected
        obtain ⟨later, _, _, rfl, hlater, hpure⟩ := yields_bind.1 hanswered
        obtain ⟨rfl, rfl⟩ := yields_pure.1 hpure
        rw [List.append_nil]
        exact ⟨code, high, low, extra, _, later, hcode, rfl, rfl, hlater⟩
    · exact absurd hanswered not_yields_throw
  · rintro ⟨code, high, low, extra, rest, later, hcode, rfl, rfl, hlater⟩
    refine yields_bind.2 ⟨(), _, _, rfl, yields_send.2 rfl, yields_bind.2 ?_⟩
    refine ⟨(code, space :: high :: low :: extra), [_], _, rfl, yields_receivePacket.2 rfl, ?_⟩
    dsimp only
    rw [if_neg (by simp [hcode])]
    exact yields_bind.2 ⟨_, _, [], (List.append_nil _).symm, hlater, yields_pure.2 ⟨rfl, rfl⟩⟩

theorem yields_readWords {space : UInt8} {count : Nat} {address : UInt16} {words : List UInt16} :
    (readWords space address count).Yields dialogue words ↔
      words.length = count ∧ WordsTold space address words dialogue := by
  induction count generalizing address words dialogue with
  | zero =>
    rw [readWords, yields_pure]
    constructor
    · rintro ⟨rfl, rfl⟩
      exact ⟨rfl, .none address⟩
    · rintro ⟨hlength, htold⟩
      cases List.eq_nil_of_length_eq_zero hlength
      cases htold
      exact ⟨rfl, rfl⟩
  | succ count ih =>
    rw [yields_readWords_succ]
    constructor
    · rintro ⟨code, high, low, extra, rest, later, hcode, rfl, rfl, hlater⟩
      obtain ⟨hlength, htold⟩ := ih.1 hlater
      exact ⟨congrArg _ hlength, .word code high low extra hcode htold⟩
    · rintro ⟨hlength, htold⟩
      cases htold with
      | none => cases hlength
      | word code high low extra hcode hrest =>
        have hlater := ih.2 ⟨Nat.succ.inj hlength, hrest⟩
        exact ⟨code, high, low, extra, _, _, hcode, rfl, rfl, hlater⟩

/-- A clock of words has no time where its day or month is the last word, or where its year, counted
from 2000, lies behind it. -/
theorem timeOfWords_eq_none_iff {second minute hour day weekday month year : UInt16} :
    timeOfWords [second, minute, hour, day, weekday, month, year] = none ↔
      day = 0xFFFF ∨ month = 0xFFFF ∨ 63536 ≤ year.toNat := by
  have hone : ∀ w : UInt16, checkedSum16 w 1 = none ↔ w = 0xFFFF := by
    intro w
    have hbound := w.toNat_lt
    rw [checkedSum16_eq_none_iff, ← UInt16.toNat_inj]
    show 0x10000 ≤ w.toNat + 1 ↔ w.toNat = 65535
    omega
  have hyear : checkedSum16 2000 year = none ↔ 63536 ≤ year.toNat := by
    rw [checkedSum16_eq_none_iff]
    show 0x10000 ≤ 2000 + year.toNat ↔ _
    omega
  rw [← hone day, ← hone month, ← hyear]
  unfold timeOfWords
  simp only [List.getD_cons_succ, List.getD_cons_zero]
  cases checkedSum16 day 1 <;> cases checkedSum16 month 1 <;> cases checkedSum16 2000 year <;> simp

theorem takes_timeOfWords_overflow :
    (do ofChecked (timeOfWords (← readWords stateSpace 0 7)) :
        Exchange RemoteError DateTime).run.Takes dialogue (.error .overflow) ↔
      ∃ second minute hour day weekday month year : UInt16,
        WordsTold stateSpace 0 [second, minute, hour, day, weekday, month, year] dialogue ∧
        (day = 0xFFFF ∨ month = 0xFFFF ∨ 63536 ≤ year.toNat) := by
  have hregular : (readWords stateSpace 0 7).Within (.regular fun _ => True) :=
    within_readWords (fun _ _ => trivial) _ _ _
  rw [takes_bind_overflow hregular]
  constructor
  · rintro ⟨words, first, rest, rfl, hwords, hsum⟩
    obtain ⟨rfl, hnone⟩ := takes_ofChecked_overflow.1 hsum
    obtain ⟨hlength, htold⟩ := yields_readWords.1 hwords
    rw [List.append_nil]
    match words, hlength with
    | [_, _, _, _, _, _, _], _ =>
      exact ⟨_, _, _, _, _, _, _, htold, timeOfWords_eq_none_iff.1 hnone⟩
  · rintro ⟨second, minute, hour, day, weekday, month, year, htold, hlimit⟩
    have hnone : timeOfWords [second, minute, hour, day, weekday, month, year] = none :=
      timeOfWords_eq_none_iff.2 hlimit
    exact ⟨_, dialogue, [], (List.append_nil _).symm, yields_readWords.2 ⟨rfl, htold⟩,
      takes_ofChecked_overflow.2 ⟨rfl, hnone⟩⟩

/-- Asked for the time, a host overflows only where a clock of words tells a value at its limit. -/
theorem takes_readClock_overflow {c : Classic} :
    c.readClock.run.Takes dialogue (.error .overflow) ↔
      ∃ geometry, c.geometry = some geometry ∧ wordClock ≤ geometry.architecture ∧
        ∃ second minute hour day weekday month year : UInt16,
          WordsTold stateSpace 0 [second, minute, hour, day, weekday, month, year] dialogue ∧
          (day = 0xFFFF ∨ month = 0xFFFF ∨ 63536 ≤ year.toNat) := by
  unfold readClock known
  cases hgeometry : c.geometry with
  | none => exact ⟨fun h => (nomatch h.2), fun ⟨_, h, _⟩ => (nomatch h)⟩
  | some geometry =>
    show (readClockOf geometry.architecture).run.Takes _ _ ↔ _
    simp only [Option.some.injEq, exists_eq_left']
    unfold readClockOf
    split
    · -- the sums of a clock of bytes wrap, so there is nothing to overflow
      rename_i hbytes
      have hread : (readBytes stateSpace 0 6).Within (.regular fun _ => True) :=
        within_readBytes (fun _ _ => trivial) _ _ _
      have hregular := hread.bind fun state => within_pure (timeOfBytes state)
      exact iff_of_false hregular.not_overflow fun h => absurd h.1 (UInt16.not_le.2 hbytes)
    · rename_i hwords
      rw [and_iff_right (UInt16.not_lt.1 hwords)]
      exact takes_timeOfWords_overflow

end Classic

/-! ## Sizes of stored configurations -/

namespace FileTransfer

variable {dialogue : List Turn}

/-- The request for the size of a stored configuration. -/
def sizeAsked : Report :=
  [0xFF, 0x01, 0x00, 0x03, 0x80] ++ Utf8.encode "/cfg/usercfg" ++ [0x00, 0x80, 0x52, 0x00]

theorem sizeAsked_eq : openToRead 0x00 0x03 configName = sizeAsked :=
  openToRead_eq 0x00 0x03 configName

/-- The turns in which a remote tells the size of its stored configuration. -/
def sizeTold (answer closing : Report) : List Turn :=
  [.say sizeAsked, .hear answer, .say [0xFF, 0x07, 0x01, 0x01, 0x01, 0x06], .hear closing]

theorem yields_configLength {length : Nat} :
    configLength.Yields dialogue length ↔ ∃ answer closing, dialogue = sizeTold answer closing ∧
      11 ≤ answer.length ∧ ByteOrder.big.value ((answer.drop 7).take 4) = length := by
  rw [configLength, sizeAsked_eq]
  constructor
  · intro h
    obtain ⟨told, _, _, rfl, hopening, hbehind⟩ := yields_bind.1 h
    obtain ⟨closed, _, _, rfl, hclosing, hrest⟩ := yields_bind.1 hbehind
    obtain ⟨⟨token, size⟩, _, _, rfl, hfirst, hpure⟩ := yields_bind.1 hrest
    obtain ⟨rfl, rfl⟩ := yields_pure.1 hpure
    obtain ⟨rfl, rfl, u, rfl⟩ := yields_first.1 hfirst
    obtain ⟨answer, rfl, hopened⟩ := yields_openFile.1 (yields_attempt_ok.1 hopening)
    obtain ⟨closing, rfl⟩ := yields_release.1 (yields_attempt_ok.1 hclosing)
    obtain ⟨hlength, -, hsize⟩ := opened_eq_ok_iff.1 hopened
    exact ⟨answer, closing, rfl, hlength, hsize⟩
  · rintro ⟨answer, closing, rfl, hlength, hsize⟩
    have hopened := opened_eq_ok_iff.2 ⟨hlength, rfl, hsize⟩
    have hopening : (openFile sizeAsked promptWait).Yields _ _ :=
      yields_openFile.2 ⟨answer, rfl, hopened⟩
    have hclosing : (release 0x01 identityToken).Yields _ () := yields_release.2 ⟨closing, rfl⟩
    refine yields_bind.2 ⟨_, _, _, rfl, yields_attempt_ok.2 hopening, yields_bind.2 ?_⟩
    refine ⟨_, _, [], (List.append_nil _).symm, yields_attempt_ok.2 hclosing, yields_bind.2 ?_⟩
    exact ⟨_, [], [], rfl, yields_first.2 ⟨rfl, rfl, (), rfl⟩, yields_pure.2 ⟨rfl, rfl⟩⟩

theorem atMost_converse (report : Report) (timeout : Nat) : (converse report timeout).AtMost 2 :=
  (atMost_send report).bind fun _ => atMost_receive timeout

theorem atMost_configLength : configLength.AtMost 4 := by
  have hopening : (openFile (openToRead 0x00 0x03 configName) promptWait).AtMost 2 := by
    refine (atMost_converse _ _).bind fun answer => ?_
    cases opened answer with
    | ok told => exact atMost_pure told
    | error cause => exact atMost_throw _
  have hrelease : (release 0x01 identityToken).AtMost 2 :=
    (atMost_converse _ _).bind fun _ => atMost_pure _
  have hfirst : ∀ (answer : Except RemoteError (UInt8 × Nat)) (closed : Except RemoteError Unit),
      (first answer closed).AtMost 0 := by
    rintro (cause | told) (cause | u)
    · exact atMost_throw _
    · exact atMost_throw _
    · exact atMost_throw _
    · exact atMost_pure _
  refine (atMost_attempt hopening).bind fun answer => ?_
  exact (atMost_attempt hrelease).bind fun closed => (hfirst answer closed).bind fun _ =>
    atMost_pure _

/-- What is asked of a remote before the size of its stored configuration. -/
def survey : Exchange RemoteError Identity := do
  greet 5
  let _ ← converse [0xFF, 0xFF, 0x01, 0x01, 0x01, 0x66] promptWait
  let _ ← converse [0xFF, 0x00, 0x02] promptWait
  let contents ← fetch sysinfoName 0x03 .identify
  progress .identify 1 2
  return Sysinfo.identity contents

/-- The identity of a remote whose stored configuration has a length. -/
def measured (identity : Identity) (length : Nat) : Exchange RemoteError Identity := do
  let used ← ofChecked (usedBytes length)
  let capacity := ((identity.chip.map (·.kibibytes)).getD 0) <<< 10
  progress .identify 2 2
  return { identity with area := { valid := true, used, capacity } }

theorem identify_eq :
    identify = survey >>= fun identity => configLength >>= measured identity := by
  unfold identify survey
  simp only [bind_assoc]
  rfl

theorem within_survey : survey.Within (.regular (· ≠ sizeAsked)) := by
  rw [← sizeAsked_eq]
  have hcontrol : ∀ (operation : UInt8) (body : List UInt8), operation ≠ 0x01 →
      0xFF :: operation :: body ≠ openToRead 0x00 0x03 configName := by
    rintro operation body hoperation heq
    exact hoperation (List.cons.inj (List.cons.inj heq).2).1
  have hopens : openToRead (Sequence.sixBit 0x03).current 0x02 sysinfoName ≠
      openToRead 0x00 0x03 configName := by
    intro heq
    have hnumber := congrArg (List.getD · 2 0) heq
    cases hnumber
  have hfetch : (fetch sysinfoName 0x03 .identify).Within
      (.regular (· ≠ openToRead 0x00 0x03 configName)) :=
    within_fetch (fun _ _ _ => hcontrol _ _ (by decide)) (fun _ _ => hcontrol _ _ (by decide))
      (by decide) hopens _
  refine (within_greet (hcontrol _ _ (by decide)) 5).bind fun _ => ?_
  refine (within_converse (hcontrol _ _ (by decide)) _).bind fun _ => ?_
  refine (within_converse (hcontrol _ _ (by decide)) _).bind fun _ => hfetch.bind fun contents => ?_
  exact (within_progress _ _ _).bind fun _ => within_pure _

theorem within_configLength_regular : configLength.Within (.regular fun _ => True) :=
  within_configLength fun _ _ => trivial

/-- A size that is told in four bytes stays in its word, but not always with the end marker. -/
theorem usedBytes_eq_none_iff {bytes : List UInt8} (h : bytes.length = 4) :
    usedBytes (ByteOrder.big.value bytes) = none ↔ 0xFFFFFFFC ≤ ByteOrder.big.value bytes := by
  have hlt : ByteOrder.big.value bytes < 0x100000000 := by
    rw [show 0x100000000 = ByteOrder.room bytes.length by rw [h]; rfl]
    exact ByteOrder.big.value_lt bytes
  have htoNat : (UInt32.ofNat (ByteOrder.big.value bytes)).toNat = ByteOrder.big.value bytes :=
    Nat.mod_eq_of_lt hlt
  rw [usedBytes, checkedSum_eq_none_iff, htoNat]
  show 0x100000000 ≤ ByteOrder.big.value bytes + 4 ↔ _
  omega

theorem takes_measured_overflow {identity : Identity} {length : Nat} :
    (measured identity length).run.Takes dialogue (.error .overflow) ↔
      dialogue = [] ∧ usedBytes length = none := by
  unfold measured
  cases usedBytes length with
  | none => exact ⟨fun h => ⟨h.1, rfl⟩, fun h => ⟨h.1, rfl⟩⟩
  | some used => exact ⟨fun h => (nomatch h.2), fun h => (nomatch h.2)⟩

/-- A host that asks for the size overflows where it is told one that leaves no room for the four bytes
of the end marker. -/
theorem takes_measure_overflow {identity : Identity} :
    (configLength >>= measured identity).run.Takes dialogue (.error .overflow) ↔
      ∃ answer closing, dialogue = sizeTold answer closing ∧ 11 ≤ answer.length ∧
        0xFFFFFFFC ≤ ByteOrder.big.value ((answer.drop 7).take 4) := by
  have hnone_iff : ∀ {answer : Report}, 11 ≤ answer.length →
      (usedBytes (ByteOrder.big.value ((answer.drop 7).take 4)) = none ↔
        0xFFFFFFFC ≤ ByteOrder.big.value ((answer.drop 7).take 4)) := by
    intro answer hanswer
    refine usedBytes_eq_none_iff ?_
    rw [List.length_take, List.length_drop]
    omega
  rw [takes_bind_overflow within_configLength_regular]
  constructor
  · rintro ⟨length, first, rest, rfl, hlength, hmeasured⟩
    obtain ⟨rfl, hnone⟩ := takes_measured_overflow.1 hmeasured
    obtain ⟨answer, closing, rfl, hanswer, rfl⟩ := yields_configLength.1 hlength
    rw [List.append_nil]
    exact ⟨answer, closing, rfl, hanswer, (hnone_iff hanswer).1 hnone⟩
  · rintro ⟨answer, closing, rfl, hanswer, hlimit⟩
    have hlength := yields_configLength.2 ⟨answer, closing, rfl, hanswer, rfl⟩
    exact ⟨_, _, [], (List.append_nil _).symm, hlength,
      takes_measured_overflow.2 ⟨rfl, (hnone_iff hanswer).2 hlimit⟩⟩

theorem atMost_measure (identity : Identity) : (configLength >>= measured identity).AtMost 4 := by
  refine atMost_configLength.bind fun length => ?_
  unfold measured
  cases usedBytes length with
  | none => exact atMost_throw _
  | some used => exact atMost_pure _

/-- The size of the configuration is asked for last, and only once. -/
theorem identify_overflow_iff {result : Except (Halt RemoteError) Identity}
    (h : identify.run.Takes dialogue result) :
    result = .error .overflow ↔ ∃ before answer closing,
      dialogue = before ++ sizeTold answer closing ∧ 11 ≤ answer.length ∧
        0xFFFFFFFC ≤ ByteOrder.big.value ((answer.drop 7).take 4) := by
  have hunasked : ∀ {first told}, survey.run.Takes first told →
      .say sizeAsked ∉ first := by
    intro first told hfirst hmem
    refine (within_survey.said (fun cause => ⟨_, rfl⟩) hfirst).2 _ ?_ rfl
    exact List.mem_filterMap.2 ⟨_, hmem, rfl⟩
  rw [identify_eq] at h
  constructor
  · rintro rfl
    obtain ⟨identity, before, rest, rfl, -, hrest⟩ := (takes_bind_overflow within_survey).1 h
    obtain ⟨answer, closing, rfl, hanswer, hlimit⟩ := takes_measure_overflow.1 hrest
    exact ⟨before, answer, closing, rfl, hanswer, hlimit⟩
  · -- the survey does not ask for the size, and only four turns are left behind it
    rintro ⟨before, answer, closing, rfl, hanswer, hlimit⟩
    rcases takes_bind.1 h with ⟨halt, hsurvey, -⟩ | ⟨identity, first, rest, heq, hfirst, hrest⟩
    · exact absurd (List.mem_append_right _ List.mem_cons_self) (hunasked hsurvey)
    · have hlength := atMost_measure identity _ _ hrest
      obtain ⟨between, rfl, hsize⟩ : ∃ between, first = before ++ between ∧
          sizeTold answer closing = between ++ rest := by
        rcases List.append_eq_append_iff.1 heq with hmore | ⟨between, rfl, rfl⟩
        · exact hmore
        · rw [List.length_append] at hlength
          cases List.eq_nil_of_length_eq_zero (Nat.le_zero.1 (Nat.le_of_add_le_add_right hlength))
          exact ⟨[], by simp⟩
      cases between with
      | nil =>
        rw [List.nil_append] at hsize
        exact hrest.unique (takes_measure_overflow.2 ⟨answer, closing, hsize.symm, hanswer, hlimit⟩)
      | cons turn between =>
        obtain ⟨rfl, -⟩ := List.cons.inj hsize
        exact absurd (List.mem_append_right _ List.mem_cons_self) (hunasked hfirst)

end FileTransfer

/-! ## Runs -/

theorem Exchange.Within.not_stalled {x : Exchange RemoteError α} (h : x.Within .patient)
    (device : Device σ) (state : σ) : (x.run.run device state).result ≠ .error .stalled := by
  intro hstalled
  have hmeets : ∀ cause, Terms.patient.Meets cause := fun _ => nofun
  exact (h.run (device.honours_of_forall hmeets) trivial).1 _ hstalled rfl

theorem Classic.within_readClock_patient (c : Classic) : c.readClock.Within .patient := by
  have hearly : Terms.patient.ends (.failed (.protocol .notIdentified)) := nofun
  have hoverflow : Terms.patient.ends .overflow := nofun
  unfold readClock known
  cases c.geometry with
  | none => exact within_throw hearly
  | some geometry => exact within_readClockOf (fun _ _ => trivial) hoverflow geometry.architecture

/-- Asked for the time of a classic remote, or for the identity of one that keeps files, a host has an
answer, reports a failure, or overflows. It overflows where a clock of words tells a day or a month
that is the last word, or a year that leaves its word when it is counted from 2000, and where the size
that is told of the stored configuration has no room for the end marker. -/
theorem Remote.overflow_iff_limits (device : Device σ) (state : σ) (patience : Nat)
    (geometry : Option Geometry) :
    let clock := (Remote.readClock ⟨.classic, patience, geometry⟩).run.run device state
    let identity := (Remote.describe ⟨.mh, patience, geometry⟩).run.run device state
    (clock.result ≠ .error .stalled ∧
      (clock.result = .error .overflow ↔
        ∃ g, geometry = some g ∧ Classic.wordClock ≤ g.architecture ∧
        ∃ second minute hour day weekday month year : UInt16,
          Classic.WordsTold Classic.stateSpace 0
            [second, minute, hour, day, weekday, month, year] (turns clock.trace) ∧
          (day = 0xFFFF ∨ month = 0xFFFF ∨ 63536 ≤ year.toNat))) ∧
    (identity.result ≠ .error .stalled ∧
      (identity.result = .error .overflow ↔ ∃ before answer closing,
        turns identity.trace = before ++ FileTransfer.sizeTold answer closing ∧
        11 ≤ answer.length ∧
        0xFFFFFFFC ≤ ByteOrder.big.value ((answer.drop 7).take 4))) := by
  have hidentify : Remote.describe ⟨.mh, patience, geometry⟩ = FileTransfer.identify :=
    Remote.describe_eq _
  rw [hidentify]
  intro clock identity
  constructor
  · let c : Classic := { patience, geometry }
    have htakes : c.readClock.run.Takes (turns clock.trace) clock.result :=
      Program.takes_run c.readClock.run device state
    refine ⟨c.within_readClock_patient.not_stalled device state, ?_⟩
    refine Iff.trans ?_ (Classic.takes_readClock_overflow (c := c))
    exact ⟨fun h => h ▸ htakes, htakes.unique⟩
  · have hwithin : FileTransfer.identify.Within .patient :=
      FileTransfer.within_identify (fun _ _ => trivial) nofun
    refine ⟨hwithin.not_stalled device state, FileTransfer.identify_overflow_iff ?_⟩
    exact Program.takes_run FileTransfer.identify.run device state

/-- A day that is the last word, and a configuration that is four bytes short of the last size. -/
theorem Remote.overflow_at_limits :
    ((Remote.readClock ⟨.classic, 4, some ⟨1, 8⟩⟩).run.run Script.device
      { reads := [.report [0xC3, 0x01, 0x00, 0x1E], .report [0xC3, 0x01, 0x00, 0x0F],
          .report [0xC3, 0x01, 0x00, 0x0C], .report [0xC3, 0x01, 0xFF, 0xFF],
          .report [0xC3, 0x01, 0x00, 0x03], .report [0xC3, 0x01, 0x00, 0x05],
          .report [0xC3, 0x01, 0x00, 0x0A]] }).result = .error .overflow ∧
    ((Remote.describe ⟨.mh, 4, none⟩).run.run Script.device
      { reads := [.report [0xFF], .report [0xFF],
          .report [0xFF, 0x01, 0x03, 0x00, 0x01, 0x05, 0x04, 0x00, 0x00, 0x00, 0x00],
          .report [0xFF], .report [0xFF],
          .report [0xFF, 0x01, 0x00, 0x00, 0x01, 0x06, 0x04, 0xFF, 0xFF, 0xFF, 0xFC],
          .report [0xFF]] }).result = .error .overflow := by
  constructor <;> decide +kernel

end UniversalRemote
