import UniversalRemote.FileTransfer.Transfer
import UniversalRemote.Proofs.Link.Dialogue
/-!
# Dialogues of numbered exchanges

A numbered exchange takes a dialogue from one number to another. Beside the rules for the ways in
which such exchanges are put together, there is one for the use of a token: a dialogue of the
exchange in between, the release of the token, and an answer to it.
-/

namespace UniversalRemote.FileTransfer

open Exchange

/-- The counter of a transfer behind so many of its packets. -/
abbrev counter (count : Nat) : Sequence :=
  Sequence.sixBit (UInt8.ofNat count)

/-- The number that the packet behind so many others carries. -/
def numberAt (count : Nat) : UInt8 :=
  UInt8.ofNat (count % 64)

theorem toNat_numberAt (count : Nat) : (numberAt count).toNat = count % 64 := by
  simp only [numberAt, UInt8.toNat_ofNat', Nat.reducePow]
  omega

theorem numberAt_ne (count : Nat) {b : UInt8} (hb : 64 ≤ b.toNat) : numberAt count ≠ b := by
  rintro rfl
  rw [toNat_numberAt] at hb
  omega

theorem dataPacket_ne_singleton (number last : UInt8) (data : List UInt8) :
    dataPacket number data ≠ [last] :=
  fun h => nomatch List.cons.inj h

theorem current_counter (count : Nat) : (counter count).current = numberAt count :=
  Sequence.current_sixBit_ofNat count

theorem advance_counter (count : Nat) : (counter count).advance = counter (count + 1) :=
  Sequence.advance_sixBit_ofNat count

theorem openToRead_eq (number parameters : UInt8) (name : String) :
    openToRead number parameters name =
      [0xFF, 0x01, number, parameters, 0x80] ++ Utf8.encode name ++ [0x00, 0x80, 0x52, 0x00] :=
  List.append_nil _

theorem openToWrite_eq (number : UInt8) (name : String) (length : Nat) :
    openToWrite number name length =
      [0xFF, 0x01, number, 0x03, 0x80] ++ Utf8.encode name ++
        [0x00, 0x80, 0x57, 0x00, 0x04] ++ ByteOrder.big.bytes 4 length := by
  rw [openToWrite, openRequest, List.append_assoc, List.append_assoc, List.append_assoc]
  rfl

theorem opened_eq_ok_iff {opening : Report} {token : UInt8} {length : Nat} :
    opened opening = .ok (token, length) ↔ 11 ≤ opening.length ∧ opening.getD 5 0 = token ∧
      ByteOrder.big.value ((opening.drop 7).take 4) = length := by
  unfold opened
  split
  · rename_i hshort
    exact ⟨fun h => (nomatch h), fun h => absurd h.1 (by omega)⟩
  · rename_i hlong
    rw [Except.ok.injEq, Prod.mk.injEq]
    exact ⟨fun h => ⟨by omega, h⟩, fun h => h.2⟩

variable {dialogue : List Turn} {n m : Sequence}

theorem yields_converse {report answer : Report} {timeout : Nat} :
    (converse report timeout).Yields dialogue answer ↔ dialogue = [.say report, .hear answer] := by
  rw [converse, yields_bind]
  constructor
  · rintro ⟨_, _, _, rfl, hsend, hreceive⟩
    rw [yields_send.1 hsend, yields_receive.1 hreceive]
    rfl
  · rintro rfl
    exact ⟨(), [.say report], _, rfl, yields_send.2 rfl, yields_receive.2 rfl⟩

theorem yields_release {number token : UInt8} {u : Unit} :
    (release number token).Yields dialogue u ↔
      ∃ answer, dialogue = [.say (releasePacket number token), .hear answer] := by
  rw [release, yields_bind]
  constructor
  · rintro ⟨answer, _, _, rfl, hconverse, hpure⟩
    rw [yields_converse.1 hconverse, (yields_pure.1 hpure).1]
    exact ⟨answer, rfl⟩
  · rintro ⟨answer, rfl⟩
    exact ⟨answer, _, [], rfl, yields_converse.2 rfl, yields_pure.2 ⟨rfl, rfl⟩⟩

theorem yields_openFile {request : Report} {timeout : Nat} {told : UInt8 × Nat} :
    (openFile request timeout).Yields dialogue told ↔
      ∃ opening, dialogue = [.say request, .hear opening] ∧ opened opening = .ok told := by
  rw [openFile, yields_bind]
  constructor
  · rintro ⟨opening, _, _, rfl, hconverse, hcheck⟩
    obtain ⟨rfl, hopened⟩ := yields_check.1 hcheck
    rw [yields_converse.1 hconverse]
    exact ⟨opening, rfl, hopened⟩
  · rintro ⟨opening, rfl, hopened⟩
    exact ⟨opening, _, [], rfl, yields_converse.2 rfl, yields_check.2 ⟨rfl, hopened⟩⟩

namespace Numbered

/-- A numbered exchange takes a dialogue from one number to another, and has an answer. -/
def Yields (x : Numbered α) (n : Sequence) (dialogue : List Turn) (a : α) (m : Sequence) : Prop :=
  (x.run.run n).Takes dialogue (.ok a, m)

theorem yields_pure {a b : α} :
    (pure a : Numbered α).Yields n dialogue b m ↔ dialogue = [] ∧ n = m ∧ a = b := by
  constructor
  · rintro ⟨hnil, hresult⟩
    cases hresult
    exact ⟨hnil, rfl, rfl⟩
  · rintro ⟨rfl, rfl, rfl⟩
    exact ⟨rfl, rfl⟩

theorem not_yields_refuse {cause : ProtocolError} {a : α} :
    ¬ (refuse cause : Numbered α).Yields n dialogue a m :=
  fun h => nomatch h.2

theorem yields_bind {x : Numbered α} {f : α → Numbered β} {b : β} :
    (x >>= f).Yields n dialogue b m ↔
      ∃ a between before behind, dialogue = before ++ behind ∧ x.Yields n before a between ∧
        (f a).Yields between behind b m := by
  refine Program.takes_bind.trans ?_
  constructor
  · rintro ⟨⟨_ | a, between⟩, before, behind, heq, hbefore, hbehind⟩
    · exact nomatch hbehind.2
    · exact ⟨a, between, before, behind, heq, hbefore, hbehind⟩
  · rintro ⟨a, between, before, behind, heq, hbefore, hbehind⟩
    exact ⟨(.ok a, between), before, behind, heq, hbefore, hbehind⟩

theorem yields_lift {x : Exchange RemoteError α} {a : α} :
    (liftM x : Numbered α).Yields n dialogue a m ↔ n = m ∧ x.Yields dialogue a := by
  refine Program.takes_bind.trans ?_
  constructor
  · rintro ⟨_, _, _, rfl, hx, rfl, hresult⟩
    cases hresult
    rw [List.append_nil]
    exact ⟨rfl, hx⟩
  · rintro ⟨rfl, hx⟩
    exact ⟨.ok a, dialogue, [], (List.append_nil _).symm, hx, rfl, rfl⟩

theorem yields_lift_bind {x : Exchange RemoteError α} {f : α → Numbered β} {b : β} :
    (liftM x >>= f).Yields n dialogue b m ↔
      ∃ a before behind, dialogue = before ++ behind ∧ x.Yields before a ∧
        (f a).Yields n behind b m := by
  rw [yields_bind]
  constructor
  · rintro ⟨a, between, before, behind, heq, hbefore, hbehind⟩
    obtain ⟨rfl, hx⟩ := yields_lift.1 hbefore
    exact ⟨a, before, behind, heq, hx, hbehind⟩
  · rintro ⟨a, before, behind, heq, hx, hbehind⟩
    exact ⟨a, n, before, behind, heq, yields_lift.2 ⟨rfl, hx⟩, hbehind⟩

theorem yields_next_bind {count : Nat} {f : UInt8 → Numbered β} {b : β} :
    (next >>= f).Yields (counter count) dialogue b m ↔
      (f (numberAt count)).Yields (counter (count + 1)) dialogue b m := by
  rw [← current_counter, ← advance_counter]
  exact Iff.rfl

theorem yields_progress_bind {stage : Stage} {current total : Nat} {f : Unit → Numbered β} {b : β} :
    (progress stage current total >>= f).Yields n dialogue b m ↔
      (f ()).Yields n dialogue b m :=
  Iff.rfl

theorem yields_send_bind {report : Report} {f : Unit → Numbered β} {b : β} :
    (liftM (send report) >>= f).Yields n dialogue b m ↔
      ∃ rest, dialogue = .say report :: rest ∧ (f ()).Yields n rest b m := by
  rw [yields_lift_bind]
  constructor
  · rintro ⟨_, _, rest, rfl, hsend, hrest⟩
    rw [yields_send.1 hsend]
    exact ⟨rest, rfl, hrest⟩
  · rintro ⟨rest, rfl, hrest⟩
    exact ⟨(), [.say report], rest, rfl, yields_send.2 rfl, hrest⟩

theorem yields_receive_bind {timeout : Nat} {f : Report → Numbered β} {b : β} :
    (liftM (receive timeout) >>= f).Yields n dialogue b m ↔
      ∃ report rest, dialogue = .hear report :: rest ∧ (f report).Yields n rest b m := by
  rw [yields_lift_bind]
  constructor
  · rintro ⟨report, _, rest, rfl, hreceive, hrest⟩
    rw [yields_receive.1 hreceive]
    exact ⟨report, rest, rfl, hrest⟩
  · rintro ⟨report, rest, rfl, hrest⟩
    exact ⟨report, [.hear report], rest, rfl, yields_receive.2 rfl, hrest⟩

theorem yields_converse_bind {report : Report} {timeout : Nat} {f : Report → Numbered β} {b : β} :
    (liftM (converse report timeout) >>= f).Yields n dialogue b m ↔
      ∃ answer rest, dialogue = .say report :: .hear answer :: rest ∧
        (f answer).Yields n rest b m := by
  rw [yields_lift_bind]
  constructor
  · rintro ⟨answer, _, rest, rfl, hconverse, hrest⟩
    rw [yields_converse.1 hconverse]
    exact ⟨answer, rest, rfl, hrest⟩
  · rintro ⟨answer, rest, rfl, hrest⟩
    exact ⟨answer, _, rest, rfl, yields_converse.2 rfl, hrest⟩

theorem yields_check_bind {e : Except ProtocolError α} {f : α → Numbered β} {b : β} :
    (liftM (check e) >>= f).Yields n dialogue b m ↔
      ∃ a, e = .ok a ∧ (f a).Yields n dialogue b m := by
  rw [yields_lift_bind]
  constructor
  · rintro ⟨a, _, rest, rfl, hcheck, hrest⟩
    obtain ⟨rfl, he⟩ := yields_check.1 hcheck
    exact ⟨a, he, hrest⟩
  · rintro ⟨a, he, hrest⟩
    exact ⟨a, [], dialogue, rfl, yields_check.2 ⟨rfl, he⟩, hrest⟩

theorem yields_attempt_ok {x : Numbered α} {a : α} :
    Exchange.Yields (x.attempt n) dialogue (.ok a, m) ↔ x.Yields n dialogue a m := by
  refine Program.takes_bind.trans ?_
  constructor
  · rintro ⟨⟨(_ | _ | _) | b, rest⟩, before, behind, rfl, hbefore, rfl, hresult⟩
    all_goals cases hresult
    rw [List.append_nil]
    exact hbefore
  · intro h
    exact ⟨(.ok a, m), dialogue, [], (List.append_nil _).symm, h, rfl, rfl⟩

/-- Behind the dialogue of what uses a token, the token is released. -/
theorem yields_holding {token : UInt8} {body : Numbered α} {a : α} :
    Exchange.Yields (holding token body n) dialogue a ↔
      ∃ m before answer,
        dialogue = before ++ [.say (releasePacket m.current token), .hear answer] ∧
        body.Yields n before a m := by
  rw [holding, Exchange.yields_bind]
  constructor
  · rintro ⟨⟨outcome, m⟩, before, _, rfl, hbody, hclose⟩
    obtain ⟨closed, _, _, rfl, hrelease, hfirst⟩ := Exchange.yields_bind.1 hclose
    obtain ⟨rfl, rfl, u, rfl⟩ := Exchange.yields_first.1 hfirst
    obtain ⟨answer, rfl⟩ := yields_release.1 (Exchange.yields_attempt_ok.1 hrelease)
    exact ⟨m, before, answer, by rw [List.append_nil], yields_attempt_ok.1 hbody⟩
  · rintro ⟨m, before, answer, rfl, hbody⟩
    refine ⟨(.ok a, m), before, _, rfl, yields_attempt_ok.2 hbody, Exchange.yields_bind.2 ?_⟩
    exact ⟨.ok (), _, [], (List.append_nil _).symm,
      Exchange.yields_attempt_ok.2 (yields_release.2 ⟨answer, rfl⟩),
      Exchange.yields_first.2 ⟨rfl, rfl, (), rfl⟩⟩

end Numbered

end UniversalRemote.FileTransfer
