import UniversalRemote.Infrared.Capture
import UniversalRemote.Proofs.Link.Scripted
/-!
# The space that runs up in a capture

A capture goes on only while its space is below the end of a signal, and a packet lengthens the
space by at most fifteen words. So the space never leaves its machine word, and a capture ends with a
signal, with a failure, or because its listener is out of patience.
-/

namespace UniversalRemote

namespace Capture

/-- The most that the words of a packet add to the space. -/
def packetGap : Nat := 15 * 65535

/-- The words of a byte string, by their places in it. -/
theorem wordsOf_eq_map (bytes : List UInt8) :
    wordsOf bytes = (List.range (bytes.length / 2)).map fun i =>
      UInt32.ofNat (256 * (bytes.getD (2 * i) 0).toNat + (bytes.getD (2 * i + 1) 0).toNat) := by
  fun_induction wordsOf bytes with
  | case1 high low rest ih =>
    have hlength : (high :: low :: rest).length / 2 = rest.length / 2 + 1 := by
      rw [List.length_cons, List.length_cons]
      omega
    have hvalue : ByteOrder.big.value [high, low] = 256 * high.toNat + low.toNat :=
      Nat.add_comm low.toNat (256 * high.toNat)
    rw [hlength, List.range_succ_eq_map, List.map_cons, List.map_map, ih, hvalue]
    rfl
  | case2 bytes hshort =>
    match bytes with
    | [] => rfl
    | [_] => simp
    | high :: low :: rest => exact absurd rfl (hshort high low rest)

theorem length_wordsOf (bytes : List UInt8) : (wordsOf bytes).length = bytes.length / 2 := by
  rw [wordsOf_eq_map, List.length_map, List.length_range]

theorem toNat_le_of_mem_wordsOf {bytes : List UInt8} {t : UInt32} (h : t ∈ wordsOf bytes) :
    t.toNat ≤ 65535 := by
  fun_induction wordsOf bytes with
  | case1 high low rest ih =>
    rcases List.mem_cons.1 h with rfl | h
    · have hvalue : ByteOrder.big.value [high, low] = low.toNat + 256 * high.toNat := rfl
      have hhigh := high.toNat_lt
      have hlow := low.toNat_lt
      rw [hvalue, UInt32.toNat_ofNat', Nat.mod_eq_of_lt (by omega)]
      omega
    · exact ih h
  | case2 => exact nomatch h

@[simp] theorem gap_push (c : Capture) (t : UInt32) : (c.push t).gap = c.gap := by
  unfold push
  split <;> rfl

@[simp] theorem words_push (c : Capture) (t : UInt32) : (c.push t).words = c.words := by
  unfold push
  split <;> rfl

@[simp] theorem mark_push (c : Capture) (t : UInt32) : (c.push t).mark = c.mark := by
  unfold push
  split <;> rfl

@[simp] theorem frequency_push (c : Capture) (t : UInt32) :
    (c.push t).frequency = c.frequency := by
  unfold push
  split <;> rfl

/-- Only a word at an odd place, where a sum is sent, lengthens the space. -/
theorem exists_place {c : Capture} {t : UInt32} (ht : t.toNat ≤ 65535)
    (hroom : c.gap.toNat + 65535 < 0x100000000) :
    ∃ next, c.place t = some next ∧ next.words = c.words ∧
      next.gap.toNat ≤ c.gap.toNat + c.words % 2 * 65535 := by
  unfold place
  split
  · exact ⟨c, rfl, rfl, by omega⟩
  · exact ⟨_, rfl, rfl, Nat.le_add_right _ _⟩
  · refine ⟨_, rfl, ?_⟩
    split
    · exact ⟨rfl, Nat.le_add_right _ _⟩
    · exact ⟨words_push _ _, by rw [gap_push]; exact Nat.le_add_right _ _⟩
  · split
    · rename_i hodd
      rw [hodd]
      split
      · obtain ⟨gap, hgap, hvalue⟩ := exists_checkedSum (a := c.gap) (n := t.toNat) (by omega)
        rw [UInt32.ofNat_toNat] at hgap
        rw [hgap]
        exact ⟨_, rfl, rfl, by dsimp only; omega⟩
      · refine ⟨_, rfl, rfl, ?_⟩
        dsimp only
        split
        · rename_i hle
          rw [UInt32.toNat_sub_of_le _ _ hle]
          omega
        · exact Nat.zero_le _
    · refine ⟨_, rfl, ?_⟩
      split
      · exact ⟨rfl, Nat.le_add_right _ _⟩
      · simp only [words_push, gap_push]
        exact ⟨trivial, Nat.le_add_right _ _⟩

theorem exists_foldlM_word (ts : List UInt32) : ∀ c : Capture, (∀ t ∈ ts, t.toNat ≤ 65535) →
    c.gap.toNat + ((c.words + ts.length) / 2 - c.words / 2 + 1) * 65535 < 0x100000000 →
    ∃ next, ts.foldlM word c = some next ∧
      next.gap.toNat ≤ c.gap.toNat + ((c.words + ts.length) / 2 - c.words / 2) * 65535 := by
  induction ts with
  | nil => exact fun c _ _ => ⟨c, rfl, by omega⟩
  | cons t ts ih =>
    intro c hts hroom
    rw [List.length_cons] at hroom ⊢
    obtain ⟨next, hplace, hwords, hgap⟩ :=
      exists_place (c := c) (hts t List.mem_cons_self) (by omega)
    have hword : c.word t = some { next with words := c.words + 1 } := by
      rw [word, hplace]
      rfl
    obtain ⟨last, hlast, hbound⟩ := ih { next with words := c.words + 1 }
      (fun s hs => hts s (List.mem_cons_of_mem _ hs)) (by dsimp only; omega)
    refine ⟨last, ?_, ?_⟩
    · rw [List.foldlM_cons, hword]
      exact hlast
    · dsimp only at hbound
      omega

theorem number_gap {c next : Capture} {actual : UInt8} (h : c.number actual = .ok next) :
    next.gap = c.gap ∧ next.words = c.words := by
  unfold number at h
  dsimp only at h
  split at h
  · cases h
    exact ⟨rfl, rfl⟩
  · split at h
    · cases h
      exact ⟨rfl, rfl⟩
    · cases h

/-- Of thirty words in a row, fifteen stand at odd places. -/
theorem exists_foldlM_word_of_packet {c : Capture} (hgap : c.gap.toNat < maxGap.toNat)
    {ts : List UInt32} (hcount : ts.length ≤ 30) (hts : ∀ t ∈ ts, t.toNat ≤ 65535) :
    ∃ next, ts.foldlM word c = some next ∧ next.gap.toNat ≤ c.gap.toNat + packetGap := by
  have hmax : maxGap.toNat = 500000 := rfl
  have hodd : (c.words + ts.length) / 2 - c.words / 2 ≤ 15 := by omega
  obtain ⟨next, hnext, hbound⟩ := exists_foldlM_word ts c hts (by omega)
  have hpacket := Nat.mul_le_mul_right 65535 hodd
  exact ⟨next, hnext, Nat.le_trans hbound (Nat.add_le_add_left hpacket _)⟩

/-- While the signal is not over, a packet keeps the space within its machine word. -/
theorem takeIn_bound {c : Capture} (hgap : c.gap.toNat < maxGap.toNat) (packet : Report) :
    c.takeIn packet ≠ .error .overflow ∧
      ∀ next, c.takeIn packet = .ok next → next.gap.toNat ≤ c.gap.toNat + packetGap := by
  unfold takeIn
  split
  · exact ⟨nofun, nofun⟩
  · rename_i length _
    split
    · exact ⟨nofun, nofun⟩
    · rename_i numbered hnumber
      obtain ⟨hkept, _⟩ := number_gap hnumber
      split
      · exact ⟨nofun, nofun⟩
      · rename_i hlength
        have hcount : (wordsOf ((packet.take length.toNat).drop 2)).length ≤ 30 := by
          rw [length_wordsOf, List.length_drop, List.length_take]
          omega
        rw [← hkept] at hgap
        obtain ⟨last, hlast, hbound⟩ :=
          exists_foldlM_word_of_packet hgap hcount fun _ => toNat_le_of_mem_wordsOf
        rw [hlast]
        refine ⟨nofun, fun next hnext => ?_⟩
        cases hnext
        rwa [hkept] at hbound

theorem takeIn_ne_stalled (c : Capture) (packet : Report) : c.takeIn packet ≠ .error .stalled := by
  unfold takeIn
  grind

theorem gap_lt_of_not_isOver {c : Capture} (h : ¬ c.isOver = true) :
    c.gap.toNat < maxGap.toNat := by
  rw [isOver, decide_eq_true_eq, UInt32.not_le] at h
  exact UInt32.lt_iff_toNat_lt.1 h

end Capture

namespace Signal

open Exchange

/-- A capture writes nothing and leaves no machine word. It is out of patience only behind as many
packets. -/
theorem concludes_listen (code : UInt8) (patience : Nat) : ∀ (c : Capture) (past : List Step),
    (listen code patience c).Concludes (fun _ _ => False)
      (fun later halt => halt ≠ .overflow ∧
        (halt = .stalled → receipts past + patience ≤ receipts later))
      (fun _ _ => True) past := by
  induction patience with
  | zero =>
    intro c past
    unfold listen
    split
    · exact concludes_pure trivial
    · exact concludes_throw ⟨nofun, fun _ => Nat.le_refl _⟩
  | succ patience ih =>
    intro c past
    unfold listen
    split
    · exact concludes_pure trivial
    rename_i hover
    refine concludes_bind (concludes_receive (fun packet => ?_) fun _ => ⟨nofun, nofun⟩)
    dsimp only
    split
    · have hbound := (Capture.takeIn_bound (Capture.gap_lt_of_not_isOver hover) packet).1
      cases htaken : c.takeIn packet with
      | ok next =>
        refine concludes_bind (concludes_pure (concludes_bind (concludes_notify ?_)))
        refine (ih next _).weaken (fun later halt hleft => ⟨hleft.1, fun hstalled => ?_⟩)
          fun _ _ h => h
        have hlater := hleft.2 hstalled
        rw [receipts_told, receipts_read_ok] at hlater
        omega
      | error halt =>
        refine concludes_bind (concludes_throw ?_)
        cases halt with
        | overflow => exact absurd htaken hbound
        | failed _ => exact ⟨nofun, nofun⟩
        | stalled => exact absurd htaken (Capture.takeIn_ne_stalled c packet)
    · split
      · exact concludes_pure trivial
      · exact concludes_throw ⟨nofun, nofun⟩

theorem concludes_capture (code : UInt8) (patience : Nat) (past : List Step) :
    (capture code patience).Concludes (fun _ _ => False)
      (fun later halt => halt ≠ .overflow ∧
        (halt = .stalled → receipts past + patience ≤ receipts later))
      (fun _ _ => True) past :=
  concludes_listen code patience {} past

end Signal

end UniversalRemote
