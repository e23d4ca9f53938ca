import UniversalRemote.Proofs.Classic.Reception
import UniversalRemote.Proofs.Link.Lockstep
/-!
# Holding flash against what is expected

Reading flash and holding it against what is expected do the same on the link, up to the first byte
that differs. `verify_agrees_read` says how the ends of the two correspond, on any device.
-/

namespace UniversalRemote.Classic

open Exchange

/-! ## The first difference -/

/-- Two lists agree up to a place, and have different bytes there. -/
structure DiffersAt (i : Nat) (a b : List UInt8) : Prop where
  agree : a.take i = b.take i
  differ : ∃ x y, a[i]? = some x ∧ b[i]? = some y ∧ x ≠ y

namespace DiffersAt

variable {i : Nat} {a b : List UInt8}

theorem ne (h : DiffersAt i a b) : a ≠ b := by
  rintro rfl
  obtain ⟨x, y, hx, hy, hne⟩ := h.differ
  exact hne (Option.some.inj (hx.symm.trans hy))

theorem lt_length (h : DiffersAt i a b) : i < b.length := by
  obtain ⟨_, y, -, hy, -⟩ := h.differ
  exact (List.getElem?_eq_some_iff.1 hy).1

theorem extend (h : DiffersAt i a b) {c : List UInt8} (hc : a <+: c) : DiffersAt i c b := by
  obtain ⟨more, rfl⟩ := hc
  obtain ⟨x, y, hx, hy, hne⟩ := h.differ
  have hlt : i < a.length := (List.getElem?_eq_some_iff.1 hx).1
  refine ⟨?_, x, y, ?_, hy, hne⟩
  · rw [List.take_append_of_le_length (by omega), h.agree]
  · rw [List.getElem?_append_left hlt, hx]

theorem shift (h : DiffersAt i a b) (front : List UInt8) :
    DiffersAt (front.length + i) (front ++ a) (front ++ b) := by
  obtain ⟨x, y, hx, hy, hne⟩ := h.differ
  refine ⟨?_, x, y, ?_, ?_, hne⟩
  · rw [List.take_length_add_append, List.take_length_add_append, h.agree]
  · rw [List.getElem?_append_right (by omega), Nat.add_sub_cancel_left, hx]
  · rw [List.getElem?_append_right (by omega), Nat.add_sub_cancel_left, hy]

end DiffersAt

theorem firstDifference_cons (x y : UInt8) (a b : List UInt8) :
    firstDifference (x :: a) (y :: b) =
      if x = y then (firstDifference a b).map (· + 1) else some 0 := by
  by_cases h : x = y <;> simp [firstDifference, List.findIdx?_cons, h]

theorem differsAt_of_firstDifference {a b : List UInt8} {i : Nat}
    (h : firstDifference a b = some i) : DiffersAt i a b := by
  induction a generalizing b i with
  | nil => exact nomatch h
  | cons x a ih =>
    cases b with
    | nil => exact nomatch h
    | cons y b =>
      rw [firstDifference_cons] at h
      by_cases hxy : x = y
      · rw [if_pos hxy] at h
        obtain ⟨j, hj, rfl⟩ := Option.map_eq_some_iff.1 h
        have hshift := (ih hj).shift [x]
        rw [List.length_singleton, Nat.add_comm] at hshift
        subst hxy
        exact hshift
      · rw [if_neg hxy] at h
        obtain rfl : 0 = i := Option.some.inj h
        exact ⟨rfl, x, y, rfl, rfl, hxy⟩

theorem prefix_of_firstDifference {a b : List UInt8} (hlength : a.length ≤ b.length)
    (h : firstDifference a b = none) : a <+: b := by
  induction a generalizing b with
  | nil => exact List.nil_prefix
  | cons x a ih =>
    cases b with
    | nil => exact absurd hlength (by simp)
    | cons y b =>
      rw [firstDifference_cons] at h
      by_cases hxy : x = y
      · rw [if_pos hxy, Option.map_eq_none_iff] at h
        subst hxy
        exact List.cons_prefix_cons.2 ⟨rfl, ih (Nat.le_of_succ_le_succ hlength) h⟩
      · rw [if_neg hxy] at h
        exact nomatch h

/-! ## In step -/

/-- The bytes of flash that have been received. -/
def Framing.delivered (f : Framing) (past : List Step) : List UInt8 :=
  past.flatMap fun
    | .read _ (.ok report) => f.carried report
    | _ => []

theorem delivered_snoc_read (f : Framing) (past : List Step) (timeout : Nat) (report : Report) :
    f.delivered (past ++ [.read timeout (.ok report)]) = f.delivered past ++ f.carried report := by
  simp [Framing.delivered]

theorem delivered_snoc_wrote (f : Framing) (past : List Step) (report : Report)
    (outcome : Except LinkError Unit) :
    f.delivered (past ++ [.wrote report outcome]) = f.delivered past := by
  simp [Framing.delivered]

/-- A comparison has ended at the first byte that differs from what is expected, while the reading
goes on: it waits for the next report, unless the patience of the host is used up. -/
def Stopped (f : Framing) (address : UInt32) (expected : List UInt8) (past : List Step)
    (rest : Program (Except (Halt RemoteError) (List UInt8)))
    (answer : Except (Halt RemoteError) Unit) : Prop :=
  ∃ i place, DiffersAt i (f.delivered past) expected ∧ place.toNat = address.toNat + i ∧
    answer = .error (.failed (.mismatch (.byte place))) ∧
    rest.Ensures (fun _ _ => True)
      (fun _ result => ∀ data, result = .ok data → f.delivered past <+: data) [] ∧
    (rest = .done (.error .stalled) ∨ ∃ timeout next, rest = .read timeout next)

/-- Reading and comparing are in step, and where both have an answer the bytes are those expected. -/
abbrev InStep (f : Framing) (address : UInt32) (expected : List UInt8) :
    List Step → Exchange RemoteError (List UInt8) → Exchange RemoteError Unit → Prop :=
  Lockstep (fun data _ => data = expected) (Stopped f address expected)

section

variable {f : Framing} {address : UInt32} {expected : List UInt8} {past : List Step}

theorem inStep_receivePacket {timeout : Nat}
    {k : UInt8 × List UInt8 → Exchange RemoteError (List UInt8)}
    {k' : UInt8 × List UInt8 → Exchange RemoteError Unit}
    (h : ∀ code body, InStep f address expected (past ++ [.read timeout (.ok (code :: body))])
      (k (code, body)) (k' (code, body))) :
    InStep f address expected past (receivePacket timeout >>= k) (receivePacket timeout >>= k') := by
  rw [receivePacket, bind_assoc, bind_assoc]
  apply lockstep_receive
  intro report
  cases report with
  | nil => exact lockstep_throw _
  | cons code body => exact h code body

/-- Bytes that are held against what is expected from a place on keep reading and comparing in step,
if all bytes before them were those expected. -/
theorem inStep_compare (hbound : address.toNat + expected.length ≤ 0x100000000) {place : Nat}
    {bytes : List UInt8} (hplace : place + bytes.length ≤ expected.length)
    (hpast : f.delivered past = expected.take place ++ bytes)
    {x : Exchange RemoteError (List UInt8)} {next : List UInt8 → Exchange RemoteError Unit}
    (hnext : f.delivered past = expected.take (place + bytes.length) →
      InStep f address expected past x (next (expected.drop (place + bytes.length))))
    (hextends : x.Ensures (fun _ _ => True) (fun _ data => f.delivered past <+: data) [])
    (hpending : x.run = .done (.error .stalled) ∨ ∃ timeout rest, x.run = .read timeout rest) :
    InStep f address expected past x
      (compare address (expected.drop place) place bytes >>= next) := by
  have hlength : (expected.take place).length = place := List.length_take_of_le (by omega)
  rw [compare]
  cases hdifference : firstDifference bytes (expected.drop place) with
  | none =>
    have hfront := prefix_of_firstDifference (by rw [List.length_drop]; omega) hdifference
    simp only [pure_bind, List.drop_drop]
    apply hnext
    rw [hpast, List.take_add, ← List.prefix_iff_eq_take.1 hfront]
  | some i =>
    have hdiffers : DiffersAt (place + i) (f.delivered past) expected := by
      have hshift := (differsAt_of_firstDifference hdifference).shift (expected.take place)
      rwa [List.take_append_drop, hlength, ← hpast] at hshift
    have hlt := hdiffers.lt_length
    obtain ⟨differing, hchecked, hdiffering⟩ :=
      exists_checkedSum (a := address) (n := place + i) (by omega)
    simp only [hchecked, ofChecked, pure_bind]
    exact .stop ⟨place + i, differing, hdiffers, hdiffering, rfl, hextends, hpending⟩

variable {k : List (List UInt8) → Exchange RemoteError (List UInt8)}
  {k' : List UInt8 → Exchange RemoteError Unit} {offset length : Nat}

/-- The packets of a chunk keep reading and comparing in step. -/
theorem inStep_receiveChunk (hbound : address.toNat + expected.length ≤ 0x100000000)
    (hend : offset + length ≤ expected.length)
    (hk : ∀ later kept, kept.reverse.flatten = f.delivered later →
      f.delivered later = expected.take (offset + length) →
      InStep f address expected later (k kept) (k' (expected.drop (offset + length))))
    (hextends : ∀ kept later, (k kept).Ensures (fun _ _ => True)
      (fun _ data => kept.reverse.flatten <+: data) later) (patience : Nat) :
    ∀ (number : UInt8) (received : Nat) (kept : List (List UInt8)) (past : List Step),
      kept.reverse.flatten = f.delivered past → f.delivered past = expected.take (offset + received) →
      received ≤ length →
      InStep f address expected past
        (receiveChunk f keep offset length patience (Sequence.eightBit number 0x11) received kept >>= k)
        (receiveChunk f (compare address) offset length patience (Sequence.eightBit number 0x11)
          received (expected.drop (offset + received)) >>= k') := by
  induction patience with
  | zero => exact fun _ _ _ _ _ _ _ => lockstep_throw _
  | succ patience ih =>
    intro number received kept past hkept hpast hreceived
    rw [receiveChunk_succ, receiveChunk_succ, bind_assoc, bind_assoc]
    apply inStep_receivePacket
    intro code body
    obtain ⟨now, hnow⟩ : ∃ now, past ++ [.read promptWait (.ok (code :: body))] = now := ⟨_, rfl⟩
    have hdelivered : f.delivered now = f.delivered past ++ f.carried (code :: body) := by
      rw [← hnow, delivered_snoc_read]
    simp only [hnow, bind_assoc]
    apply lockstep_check
    intro bytes? hverdict
    cases bytes? with
    | none =>
      obtain ⟨hclosing, rfl⟩ := verdict_eq_none_iff.1 hverdict
      rw [carried_of_done hclosing, List.append_nil] at hdelivered
      exact hk now kept (by rw [hdelivered, hkept]) (by rw [hdelivered, hpast])
    | some bytes =>
      obtain ⟨-, hcarried, hfits⟩ := verdict_eq_some_iff.1 hverdict
      rw [hcarried] at hdelivered
      have hkept' : (bytes :: kept).reverse.flatten = f.delivered now := by
        rw [hdelivered, List.reverse_cons, List.flatten_append, hkept, List.flatten_singleton]
      simp only [keep, Option.elim, pure_bind, bind_assoc]
      apply inStep_compare hbound (by omega) (hpast ▸ hdelivered)
      · rw [Nat.add_assoc]
        intro hagree
        exact ih (number + 0x11) (received + bytes.length) (bytes :: kept) now hkept' hagree hfits
      · apply ensures_bind
        apply (ensures_receiveChunk offset length patience (number + 0x11) (received + bytes.length)
          (bytes :: kept) []).weaken
        rintro later - kept' ⟨packets, closing, -, -, -, -, hmore, -⟩
        apply (hextends kept' later).weaken
        intro _ _ data hdata
        rw [hmore, hkept'] at hdata
        exact (List.prefix_append _ _).trans hdata
      · cases patience with
        | zero => exact .inl rfl
        | succ patience => exact .inr ⟨_, _, rfl⟩

/-- The chunks of a transfer keep reading and comparing in step. -/
theorem inStep_transferChunks (hf : f.Lawful)
    (hbound : address.toNat + expected.length ≤ 0x100000000) (patience count : Nat) :
    ∀ (offset : Nat) (kept : List (List UInt8)) (past : List Step),
      kept.reverse.flatten = f.delivered past → f.delivered past = expected.take offset →
      offset ≤ expected.length → expected.length - offset ≤ count * f.readSize →
      count * f.readSize < expected.length - offset + f.readSize →
      InStep f address expected past
        (transferChunks f keep .readFlash patience address expected.length count offset kept >>=
          fun kept => pure kept.reverse.flatten)
        (transferChunks f (compare address) .compareFlash patience address expected.length count offset
          (expected.drop offset) >>= fun _ => pure ()) := by
  induction count with
  | zero =>
    intro offset kept past hkept hpast hoffset hmost _
    have hall : kept.reverse.flatten = expected := by
      rw [hkept, hpast, List.take_of_length_le (by omega)]
    rw [transferChunks, transferChunks, pure_bind, pure_bind]
    exact .done hall
  | succ count ih =>
    intro offset kept past hkept hpast hoffset hmost hleast
    rw [Nat.succ_mul] at hmost hleast
    have hread := hf.readSize_pos
    obtain ⟨size, hsize⟩ : ∃ size, min (expected.length - offset) f.readSize = size := ⟨_, rfl⟩
    rw [transferChunks, transferChunks, hsize]
    simp only [bind_assoc]
    apply lockstep_ofChecked
    intro start _
    apply lockstep_send
    have hsame : f.delivered (past ++ [.wrote (readCommand start size) (.ok ())]) = f.delivered past :=
      delivered_snoc_wrote f past _ _
    apply inStep_receiveChunk hbound (by omega)
    · intro later kept' hkept' hlater
      apply lockstep_notify
      exact ih (offset + size) kept' later hkept' hlater (by omega) (by omega) (by omega)
    · intro kept' later
      apply ensures_bind
      apply ensures_notify
      apply ensures_bind
      apply (ensures_transferChunks hf hbound .readFlash patience count (offset + size) kept' _ (by omega)
        (by omega) (by omega)).weaken
      rintro _ - kept'' ⟨_, data, -, -, -, -, hmore⟩
      apply ensures_pure
      rw [hmore]
      exact List.prefix_append _ _
    · rw [hkept, hsame]
    · rw [hsame, hpast, Nat.add_zero]
    · omega

theorem inStep_readFlash_compareFlash (hf : f.Lawful)
    (hbound : address.toNat + expected.length ≤ 0x100000000) (patience : Nat) :
    InStep f address expected [] (readFlash f patience address expected.length)
      (compareFlash f patience address expected) := by
  have hcount := hf.count_bounds expected.length
  exact inStep_transferChunks hf hbound patience _ 0 [] [] rfl rfl (Nat.zero_le _) (by omega) (by omega)

end

/-- The ways in which a reading and a comparison of the same flash end: both well, both for the same
reason, or the comparison at a byte that differs. -/
theorem verify_cases (c : Classic) (address : UInt32) (expected : List UInt8)
    (hbound : address.toNat + expected.length ≤ 0x100000000) (device : Device σ) (state : σ) :
    let read := (c.read address expected.length).run.run device state
    let verified := (c.verify address expected).run.run device state
    (read.result = .ok expected ∧ verified.result = .ok () ∧
      transfers read.trace = transfers verified.trace) ∨
    (∃ halt, read.result = .error halt ∧ verified.result = .error halt ∧
      transfers read.trace = transfers verified.trace) ∨
    ∃ g i place later, c.geometry = some g ∧
      DiffersAt i ((Framing.ofProtocol g.protocol).delivered (transfers verified.trace)) expected ∧
      place.toNat = address.toNat + i ∧
      verified.result = .error (.failed (.mismatch (.byte place))) ∧
      (∀ data, read.result = .ok data → DiffersAt i data expected) ∧
      transfers read.trace = transfers verified.trace ++ later ∧
      (later = [] → read.result = .error .stalled) := by
  intro read verified
  cases hgeometry : c.geometry with
  | none =>
    have hread : c.read address expected.length = throw (.failed (.protocol .notIdentified)) := by
      simp only [Classic.read, Classic.framing, Classic.known, hgeometry]
      rfl
    have hverify : c.verify address expected = throw (.failed (.protocol .notIdentified)) := by
      simp only [Classic.verify, Classic.framing, Classic.known, hgeometry]
      rfl
    simp only [read, verified, hread, hverify]
    exact .inr (.inl ⟨_, rfl, rfl, rfl⟩)
  | some g =>
    have hlockstep := inStep_readFlash_compareFlash (lawful_ofProtocol g.protocol) hbound c.patience
    rw [← Simulated.read_eq hgeometry, ← Simulated.verify_eq hgeometry] at hlockstep
    rcases Program.Lockstep.run hlockstep device state with ⟨hboth, htraffic⟩ | hearly
    · change Agree _ read.result verified.result at hboth
      cases hread : read.result with
      | ok data =>
        cases hverified : verified.result with
        | ok _ =>
          rw [hread, hverified] at hboth
          exact .inl ⟨congrArg _ hboth, rfl, htraffic⟩
        | error halt =>
          rw [hread, hverified] at hboth
          exact hboth.elim
      | error halt =>
        cases hverified : verified.result with
        | ok _ =>
          rw [hread, hverified] at hboth
          exact hboth.elim
        | error halt' =>
          rw [hread, hverified] at hboth
          exact .inr (.inl ⟨halt, rfl, congrArg _ (Eq.symm hboth), htraffic⟩)
    · obtain ⟨rest, ⟨i, place, hdiffers, hplace, hverified, hensures, hpending⟩, hread, htraffic⟩ :=
        hearly
      refine .inr (.inr ⟨g, i, place, _, rfl, hdiffers, hplace, hverified, ?_, htraffic, ?_⟩)
      · intro data hdata
        exact hdiffers.extend ((hensures.run device _).1 data (hread.symm.trans hdata))
      · intro hlater
        rcases hpending with rfl | ⟨timeout, next, rfl⟩
        · exact hread
        · rw [Program.run_read] at hlater
          exact absurd hlater (List.cons_ne_nil _ _)

/-- Holding flash against what is expected ends as reading it does. Where the reading brings the bytes
that are expected, nothing is wrong; where it brings others, the first of them is told; and where it
fails, the comparison fails for the same reason, or has met a byte that differs before: the reading
goes on behind that byte, unless the patience of the host ends there. -/
theorem verify_agrees_read (c : Classic) (address : UInt32) (expected : List UInt8)
    (hbound : address.toNat + expected.length ≤ 0x100000000) (device : Device σ) (state : σ) :
    let read := (c.read address expected.length).run.run device state
    let verified := (c.verify address expected).run.run device state
    (∀ data, read.result = .ok data →
      (data = expected → verified.result = .ok ()) ∧
      (data ≠ expected → ∃ i place, DiffersAt i data expected ∧ place.toNat = address.toNat + i ∧
        verified.result = .error (.failed (.mismatch (.byte place))))) ∧
    (verified.result = .ok () → read.result = .ok expected ∧
      transfers read.trace = transfers verified.trace) ∧
    (∀ halt, read.result = .error halt →
      (verified.result = .error halt ∧ transfers read.trace = transfers verified.trace) ∨
      ∃ g i place later, c.geometry = some g ∧
        DiffersAt i ((Framing.ofProtocol g.protocol).delivered (transfers verified.trace)) expected ∧
        place.toNat = address.toNat + i ∧
        verified.result = .error (.failed (.mismatch (.byte place))) ∧
        transfers read.trace = transfers verified.trace ++ later ∧ (later = [] → halt = .stalled)) := by
  intro read verified
  rcases verify_cases c address expected hbound device state with
    ⟨hread, hverified, htraffic⟩ | ⟨halt, hread, hverified, htraffic⟩ |
      ⟨g, i, place, later, hgeometry, hdiffers, hplace, hverified, hread, htraffic, hlater⟩
  · change read.result = _ at hread
    change verified.result = _ at hverified
    rw [hread, hverified]
    refine ⟨fun data hdata => ⟨fun _ => rfl, fun hne => ?_⟩, fun _ => ⟨rfl, htraffic⟩,
      fun _ herror => nomatch herror⟩
    exact absurd (Except.ok.inj hdata).symm hne
  · change read.result = _ at hread
    change verified.result = _ at hverified
    rw [hread, hverified]
    refine ⟨fun _ hok => (nomatch hok), fun hok => (nomatch hok), fun other hother => .inl ⟨?_, htraffic⟩⟩
    rw [Except.error.inj hother]
  · change verified.result = _ at hverified
    rw [hverified]
    refine ⟨fun data hdata => ⟨?_, fun _ => ⟨i, place, hread data hdata, hplace, rfl⟩⟩,
      fun hok => (nomatch hok), fun halt hhalt => .inr ⟨g, i, place, later, hgeometry, hdiffers, hplace, rfl,
        htraffic, fun hnil => ?_⟩⟩
    · rintro rfl
      exact absurd rfl (hread data hdata).ne
    · have hstalled : read.result = .error .stalled := hlater hnil
      exact Except.error.inj (hhalt.symm.trans hstalled)

/-- The second of three bytes is not the one that is expected. -/
theorem verify_agrees_read_second_byte :
    let c : Classic := ⟨100, some ⟨1, 3⟩⟩
    let s : Script := { reads := [.report [0x63, 0x01, 0xAA, 0xBB], .report [0x62, 0x12, 0xCC],
      .report [0xF1]] }
    ((c.verify 0x20000 [0xAA, 0xBC, 0xCC]).run.run Script.device s).result =
      .error (.failed (.mismatch (.byte 0x20001))) := by
  intro c s
  have hread : ((c.read 0x20000 3).run.run Script.device s).result = .ok [0xAA, 0xBB, 0xCC] := rfl
  obtain ⟨i, place, ⟨hagree, x, y, hx, hy, hne⟩, hplace, hverified⟩ :=
    ((verify_agrees_read c 0x20000 [0xAA, 0xBC, 0xCC] (by decide) Script.device s).1 _ hread).2
      (by decide)
  rw [hverified]
  match i with
  | 0 => exact absurd (Option.some.inj (hx.symm.trans hy)) hne
  | 1 =>
    obtain rfl : place = 0x20001 := UInt32.toNat_inj.1 hplace
    rfl
  | i + 2 => simp at hagree

end UniversalRemote.Classic
