import UniversalRemote.Proofs.Classic.Framing
import UniversalRemote.Proofs.Flash.Chip
import UniversalRemote.Proofs.Infrared.Gap
import UniversalRemote.Proofs.Link.Strict
/-!
# Classic exchanges end at the first failure

All exchanges with a classic remote are strict, but for the clean-up behind a capture. They leave a
machine word only where an address range, the sectors of a layout or a clock of words does.
-/

namespace UniversalRemote

namespace SectorLayout

variable {layout : SectorLayout}

/-- All sectors of a layout have addresses that are machine words. -/
def Within (layout : SectorLayout) : Prop :=
  ∀ boundary ∈ layout.boundaries, layout.base.toNat + boundary.toNat < 0x100000000

theorem Within.sectors_ne (h : layout.Within) : layout.sectors ≠ none := by
  have hall : ∀ pairs : List (UInt32 × UInt32),
      (∀ pair ∈ pairs, pair.1 ∈ layout.boundaries ∧ pair.2 ∈ layout.boundaries) →
      (pairs.mapM fun pair => layout.sector pair.1 pair.2) ≠ none := by
    intro pairs
    induction pairs with
    | nil => exact fun _ => Option.some_ne_none []
    | cons pair pairs ih =>
      intro hpairs
      obtain ⟨hfirst, hstop⟩ := hpairs pair List.mem_cons_self
      obtain ⟨first, hfirst, -⟩ := exists_checkedSum (a := layout.base) (h pair.1 hfirst)
      obtain ⟨stop, hstop, -⟩ := exists_checkedSum (a := layout.base) (h pair.2 hstop)
      rw [UInt32.ofNat_toNat] at hfirst hstop
      obtain ⟨rest, hrest⟩ := Option.ne_none_iff_exists'.1
        (ih fun other hother => hpairs other (List.mem_cons_of_mem _ hother))
      have hsector : layout.sector pair.1 pair.2 = some ⟨first, stop⟩ := by
        rw [sector, hfirst, hstop]
        rfl
      rw [List.mapM_cons, hrest, hsector]
      exact Option.some_ne_none _
  refine hall _ fun pair hpair => ?_
  obtain ⟨first, stop⟩ := pair
  obtain ⟨hfirst, hstop⟩ := List.of_mem_zip hpair
  exact ⟨hfirst, List.mem_of_mem_tail hstop⟩

theorem Within.overlapping_ne (h : layout.Within) (first length : UInt32) :
    layout.overlapping first length ≠ none := by
  obtain ⟨sectors, hsectors⟩ := Option.ne_none_iff_exists'.1 h.sectors_ne
  unfold overlapping
  split
  · exact nofun
  · rw [hsectors]
    exact nofun

end SectorLayout

open Exchange

variable {wide : Prop}

/-! ## Captures -/

theorem Signal.strict_listen (code : UInt8) (patience : Nat) :
    ∀ c : Capture, (Signal.listen code patience c).Direct wide := by
  induction patience with
  | zero =>
    intro c
    unfold Signal.listen
    split
    · exact strict_pure _
    · exact strict_throw trivial
  | succ patience ih =>
    intro c
    unfold Signal.listen
    split
    · exact strict_pure _
    rename_i hover
    refine (strict_receive _).bind fun packet => ?_
    dsimp only
    split
    · have hbound := (Capture.takeIn_bound (Capture.gap_lt_of_not_isOver hover) packet).1
      refine (strict_checkHalt fun _ => hbound).bind fun c => ?_
      exact (strict_progress _ _ _).bind fun _ => ih c
    · split
      · exact strict_pure _
      · exact strict_refuse _

namespace Classic

theorem strict_receivePacket (timeout : Nat) : (receivePacket timeout).Direct wide := by
  refine (strict_receive timeout).bind fun report => ?_
  cases report with
  | nil => exact strict_refuse _
  | cons code body => exact strict_pure _

theorem strict_unexpected (code : UInt8) (doing : String) :
    (unexpected code doing : Exchange RemoteError α).Direct wide :=
  strict_refuse _

theorem strict_known (c : Classic) : c.known.Direct wide := by
  unfold known
  split
  · exact strict_pure _
  · exact strict_refuse _

/-! ## State memory -/

theorem strict_readBytes (space : UInt8) (count : Nat) :
    ∀ address, (readBytes space address count).Direct wide := by
  induction count with
  | zero => exact fun _ => strict_pure _
  | succ count ih =>
    intro address
    unfold readBytes
    refine (strict_send trivial).bind fun _ => (strict_receivePacket _).bind fun (code, body) => ?_
    dsimp only
    split
    · split
      · exact strict_unexpected _ _
      · exact (ih _).bind fun _ => strict_pure _
    · exact strict_unexpected _ _

theorem strict_readWords (space : UInt8) (count : Nat) :
    ∀ address, (readWords space address count).Direct wide := by
  induction count with
  | zero => exact fun _ => strict_pure _
  | succ count ih =>
    intro address
    unfold readWords
    refine (strict_send trivial).bind fun _ => (strict_receivePacket _).bind fun (code, body) => ?_
    dsimp only
    split
    · split
      · exact strict_unexpected _ _
      · exact (ih _).bind fun _ => strict_pure _
    · exact strict_unexpected _ _

theorem strict_writeSpace (code space : UInt8) (body : List UInt8) :
    (writeSpace code space body).Direct wide := by
  refine (strict_send trivial).bind fun _ => (strict_receivePacket _).bind fun (answer, body) => ?_
  dsimp only
  split
  · split
    · exact strict_unexpected _ _
    · exact strict_pure _
  · exact strict_unexpected _ _

theorem strict_writeBytes (space : UInt8) (values : List UInt8) :
    ∀ address, (writeBytes space address values).Direct wide := by
  induction values with
  | nil => exact fun _ => strict_pure _
  | cons value rest ih => exact fun _ => (strict_writeSpace _ _ _).bind fun _ => ih _

theorem strict_writeWords (space : UInt8) (values : List UInt16) :
    ∀ address, (writeWords space address values).Direct wide := by
  induction values with
  | nil => exact fun _ => strict_pure _
  | cons value rest ih => exact fun _ => (strict_writeSpace _ _ _).bind fun _ => ih _

theorem strict_readClockOf {architecture : UInt16} (h : ¬ wide → architecture < wordClock) :
    (readClockOf architecture).Direct wide := by
  unfold readClockOf
  split
  · exact (strict_readBytes _ _ _).bind fun _ => strict_pure _
  · rename_i hwords
    refine (strict_readWords _ _ _).bind fun state => strict_ofChecked fun hwide => ?_
    exact absurd (h hwide) hwords

theorem strict_setClockOf (architecture : UInt16) (t : DateTime) :
    (setClockOf architecture t).Direct wide := by
  unfold setClockOf
  split
  · exact (strict_writeBytes _ _ _).bind fun _ => strict_progress _ _ _
  · refine (strict_writeWords _ _ _).bind fun _ => ?_
    exact strict_unless (strict_writeSpace _ _ _) (strict_progress _ _ _)

theorem strict_readClock {c : Classic}
    (h : ¬ wide → ∀ geometry, c.geometry = some geometry → geometry.architecture < wordClock) :
    c.readClock.Direct wide := by
  unfold readClock known
  cases hgeometry : c.geometry with
  | some geometry => exact strict_readClockOf fun hwide => h hwide geometry hgeometry
  | none => exact strict_refuse _

/-! ## Flash -/

section Flash

variable {framing : Framing} {absorb : σ → Nat → List UInt8 → Exchange RemoteError σ}

theorem strict_receiveChunk {offset length : Nat}
    (habsorb : ∀ state place data, place + data.length ≤ offset + length →
      (absorb state place data).Direct wide) (patience : Nat) :
    ∀ (sequence : Sequence) (received : Nat) (state : σ),
      (receiveChunk framing absorb offset length patience sequence received state).Direct wide := by
  induction patience with
  | zero => exact fun _ _ _ => strict_throw trivial
  | succ patience ih =>
    intro sequence received state
    unfold receiveChunk
    refine (strict_receivePacket _).bind fun (code, body) => ?_
    dsimp only
    split
    · split
      · exact strict_pure _
      · exact strict_refuse _
    split
    · exact strict_unexpected _ _
    split
    · exact strict_refuse _
    · refine (strict_check _).bind fun sequence => ?_
      split
      · exact strict_refuse _
      split
      · exact strict_refuse _
      · rename_i payload _ hroom
        refine (habsorb _ _ _ ?_).bind fun state => ih _ _ _
        rw [List.length_take]
        omega

/-- So many chunks from an offset on lie within a length that does not lead beyond the addresses. -/
structure Fits (framing : Framing) (address : UInt32) (length count offset : Nat) : Prop where
  address_le : address.toNat + length ≤ 0x100000000
  count_lt : count * framing.readSize + offset < length + framing.readSize

theorem Fits.checkedSum_ne {address : UInt32} {length count offset : Nat}
    (h : Fits framing address length (count + 1) offset) :
    checkedSum address (UInt32.ofNat offset) ≠ none := by
  have hcount := h.count_lt
  rw [Nat.succ_mul] at hcount
  have haddress := h.address_le
  obtain ⟨start, hstart, -⟩ := exists_checkedSum (a := address) (n := offset) (by omega)
  rw [hstart]
  exact nofun

theorem Fits.next {address : UInt32} {length count offset : Nat}
    (h : Fits framing address length (count + 1) offset) :
    Fits framing address length count (offset + min (length - offset) framing.readSize) := by
  have hcount := h.count_lt
  rw [Nat.succ_mul] at hcount
  exact ⟨h.address_le, by omega⟩

theorem strict_transferChunks {stage : Stage} {patience : Nat} {address : UInt32} {length : Nat}
    (habsorb : ∀ state place data, (¬ wide → place + data.length ≤ length) →
      (absorb state place data).Direct wide) (count : Nat) :
    ∀ (offset : Nat) (state : σ), (¬ wide → Fits framing address length count offset) →
      (transferChunks framing absorb stage patience address length count offset state).Direct
        wide := by
  induction count with
  | zero => exact fun _ _ _ => strict_pure _
  | succ count ih =>
    intro offset state hfits
    unfold transferChunks
    refine (strict_ofChecked fun hwide => (hfits hwide).checkedSum_ne).bind fun start => ?_
    refine (strict_send trivial).bind fun _ => ?_
    refine (strict_receiveChunk (fun state place data hplace => ?_) _ _ _ _).bind fun state => ?_
    · refine habsorb state place data fun hwide => ?_
      have hcount := (hfits hwide).count_lt
      rw [Nat.succ_mul] at hcount
      omega
    · exact (strict_progress _ _ _).bind fun _ => ih _ _ fun hwide => (hfits hwide).next

theorem strict_transfer (hframing : framing.Lawful) {stage : Stage} {patience : Nat}
    {address : UInt32} {length : Nat} {state : σ}
    (habsorb : ∀ state place data, (¬ wide → place + data.length ≤ length) →
      (absorb state place data).Direct wide)
    (hlength : ¬ wide → address.toNat + length ≤ 0x100000000) :
    (transfer framing absorb stage patience address length state).Direct wide := by
  refine strict_transferChunks habsorb _ _ _ fun hwide => ⟨hlength hwide, ?_⟩
  exact (hframing.count_bounds length).2

theorem strict_compare {address : UInt32} {length : Nat}
    (hlength : ¬ wide → address.toNat + length ≤ 0x100000000) (expected : List UInt8)
    (place : Nat) (data : List UInt8) (hplace : ¬ wide → place + data.length ≤ length) :
    (compare address expected place data).Direct wide := by
  unfold compare
  split
  · exact strict_pure _
  · rename_i i hdiffers
    refine (strict_ofChecked fun hwide => ?_).bind fun _ => strict_throw trivial
    have hi : i < data.length := by
      have := List.findIdx?_eq_some_iff_findIdx_eq.1 hdiffers
      rw [List.length_zip] at this
      omega
    have hroom := hlength hwide
    have hend := hplace hwide
    obtain ⟨differing, hsum, -⟩ := exists_checkedSum (a := address) (n := place + i) (by omega)
    rw [hsum]
    exact nofun

theorem strict_sendAll (reports : List Report) : (sendAll reports).Direct wide := by
  induction reports with
  | nil => exact strict_pure _
  | cons report rest ih => exact (strict_send trivial).bind fun _ => ih

theorem strict_writeChunks {address : UInt32} {total : Nat}
    (htotal : ¬ wide → address.toNat + total ≤ 0x100000000) (pieces : List (List UInt8)) :
    ∀ offset, (∀ piece ∈ pieces, piece ≠ []) → offset + pieces.flatten.length = total →
      (writeChunks framing address total pieces offset).Direct wide := by
  induction pieces with
  | nil => exact fun _ _ _ => strict_pure _
  | cons piece rest ih =>
    intro offset hpieces hoffset
    unfold writeChunks
    have hpiece := List.length_pos_iff.2 (hpieces piece List.mem_cons_self)
    rw [List.flatten_cons, List.length_append] at hoffset
    refine (strict_ofChecked fun hwide => ?_).bind fun start => ?_
    · have hroom := htotal hwide
      obtain ⟨start, hstart, -⟩ := exists_checkedSum (a := address) (n := offset) (by omega)
      rw [hstart]
      exact nofun
    refine (strict_send trivial).bind fun _ => (strict_sendAll _).bind fun _ => ?_
    refine (strict_send trivial).bind fun _ => (strict_receivePacket _).bind fun (code, _) => ?_
    have hrest : (writeChunks framing address total rest (offset + piece.length)).Direct wide :=
      ih _ (fun other hother => hpieces other (List.mem_cons_of_mem _ hother)) (by omega)
    exact strict_unless (strict_unexpected _ _) ((strict_progress _ _ _).bind fun _ => hrest)

theorem strict_eraseSectors (total : Nat) (sectors : List Sector) :
    ∀ erased, (eraseSectors total sectors erased).Direct wide := by
  induction sectors with
  | nil => exact fun _ => strict_pure _
  | cons sector rest ih =>
    exact fun _ => (strict_send trivial).bind fun _ => (strict_receivePacket _).bind fun _ =>
      (strict_progress _ _ _).bind fun _ => ih _

end Flash

theorem strict_eraseFlash {address length : UInt32} {layout : SectorLayout}
    (h : ¬ wide → layout.Within) : (eraseFlash address length layout).Direct wide := by
  refine (strict_ofChecked fun hwide => ?_).bind fun sectors => strict_eraseSectors _ _ _
  exact (h hwide).overlapping_ne address length

/-! ## Operations -/

section Framed

variable {c : Classic} {address : UInt32}

theorem strict_framing_bind {f : Framing → Exchange RemoteError α}
    (hf : ∀ framing : Framing, framing.Lawful → (f framing).Direct wide) :
    (c.framing >>= f).Direct wide := by
  unfold framing known
  cases c.geometry with
  | some geometry => exact hf _ (lawful_ofProtocol geometry.protocol)
  | none => exact strict_refuse _

theorem strict_keep (payloads : List (List UInt8)) (place : Nat) (data : List UInt8) :
    (keep payloads place data).Direct wide :=
  strict_pure _

theorem strict_read {length : Nat} (hlength : ¬ wide → address.toNat + length ≤ 0x100000000) :
    (c.read address length).Direct wide := by
  refine strict_framing_bind fun framing hframing => ?_
  refine (strict_transfer hframing (fun _ _ _ _ => strict_keep _ _ _) hlength).bind fun _ => ?_
  exact strict_pure _

theorem strict_verify {expected : List UInt8}
    (hlength : ¬ wide → address.toNat + expected.length ≤ 0x100000000) :
    (c.verify address expected).Direct wide := by
  refine strict_framing_bind fun framing hframing => ?_
  refine (strict_transfer hframing (fun rest place data hplace => ?_) hlength).bind fun _ => ?_
  · exact strict_compare hlength rest place data hplace
  · exact strict_pure _

theorem strict_write {data : List UInt8}
    (hlength : ¬ wide → address.toNat + data.length ≤ 0x100000000) :
    (c.write address data).Direct wide := by
  refine strict_framing_bind fun framing _ => strict_writeChunks hlength _ _ ?_ ?_
  · exact fun _ => ne_nil_of_mem_chunks
  · rw [flatten_chunks, Nat.zero_add]

end Framed

theorem strict_setClock (c : Classic) (t : DateTime) : (c.setClock t).Direct wide :=
  (strict_known c).bind fun _ => strict_setClockOf _ t

theorem strict_restart (kind : Restart) : (restart kind).Direct wide :=
  strict_send trivial

theorem strict_announce : announce.Direct wide := by
  refine (strict_send trivial).bind fun _ => (strict_receivePacket _).bind fun (code, body) => ?_
  exact strict_unless (strict_unexpected _ _) (strict_unless (strict_refuse _) (strict_pure _))

theorem strict_describe (c : Classic) (identity : Identity) :
    (c.describe identity).Direct wide := by
  refine strict_check_bind fun map hmap => ?_
  have hbase : map.configBase.toNat ≤ 0x820000 := by
    unfold Identity.memoryMap at hmap
    split at hmap
    · cases hmap
      exact Architecture.configBase_le _
    · cases hmap
  refine (strict_read fun _ => by omega).bind fun header => ?_
  dsimp only
  split
  · exact (strict_readBytes _ _ _).bind fun _ => (strict_progress _ _ _).bind fun _ =>
      strict_pure _
  · refine (strict_read fun _ => ?_).bind fun _ => (strict_progress _ _ _).bind fun _ =>
      strict_pure _
    decide

/-- Asking for the identity, without what the host remembers. -/
theorem identify_fst (c : Classic) :
    c.identify.bind (fun answer => .done answer.1) =
      (announce >>= fun identity => (c.learned identity).describe identity).run := by
  change (announce.run.bind _).bind _ = announce.run.bind _
  rw [Program.bind_assoc]
  congr 1
  funext result
  cases result with
  | error halt => rfl
  | ok identity =>
    change (((c.learned identity).describe identity).run.bind _).bind _ = _
    rw [Program.bind_assoc]
    exact Program.bind_done _

end Classic

end UniversalRemote
