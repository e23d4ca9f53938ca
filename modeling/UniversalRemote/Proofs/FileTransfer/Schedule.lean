import UniversalRemote.Proofs.FileTransfer.Ordering
/-!
# The schedule of a transfer

What a transfer sends is laid down before it begins: which packets, and in which order. A packet of
the schedule gets its number when it is sent. `scheduled` is the schedule of the data of a file, with
an acknowledgement behind every so many packets; `placed_scheduled` says where those stand.
-/

namespace UniversalRemote.FileTransfer

/-- A packet without its number. -/
inductive Item where
  | control (operation : UInt8) (rest : List UInt8)
  | data (payload : List UInt8)
  | stop

namespace Item

def report (number : UInt8) : Item → Report
  | control operation rest => 0xFF :: operation :: number :: rest
  | data payload => dataPacket number payload
  | stop => endOfData

/-- How many numbers a packet takes. -/
def taken : Item → Nat
  | control _ _ => 1
  | data _ => 1
  | stop => 0

def payload? : Item → Option (List UInt8)
  | data payload => some payload
  | _ => none

def isAck : Item → Bool
  | control operation _ => operation = 0x03
  | _ => false

def ack (token packets : UInt8) : Item :=
  control 0x03 [0x02, 0x01, token, 0x01, packets]

def release (token : UInt8) : Item :=
  control 0x07 [0x01, 0x01, token]

end Item

/-- The payload of a data packet, which begins with a number below 64. -/
def payload? : Report → Option (List UInt8)
  | number :: _ :: payload => if number.toNat < 64 then some payload else none
  | _ => none

def isWriteAck (report : Report) : Bool :=
  report.take 2 = [0xFF, 0x03]

section Items

variable (count : Nat) (item : Item)

theorem payload?_report : payload? (item.report (numberAt count)) = item.payload? := by
  have hlt : (numberAt count).toNat < 64 := by
    rw [toNat_numberAt]
    exact Nat.mod_lt _ (by decide)
  cases item with
  | control operation rest => rfl
  | data payload => exact if_pos hlt
  | stop => rfl

theorem isWriteAck_report : isWriteAck (item.report (numberAt count)) = item.isAck := by
  cases item with
  | control operation rest => simp [isWriteAck, Item.report, Item.isAck]
  | data payload =>
    have hne : numberAt count ≠ 0xFF := numberAt_ne count (by decide)
    simp [isWriteAck, Item.report, Item.isAck, dataPacket, hne]
  | stop => rfl

theorem numberOf?_report (h : item.report (numberAt count) ≠ [0x7E]) :
    numberOf? (item.report (numberAt count)) = some (numberAt count) ∧ item.taken = 1 := by
  cases item with
  | control operation rest =>
    refine ⟨?_, rfl⟩
    rw [numberOf?, if_neg h]
    rfl
  | data payload => exact ⟨(carries_dataPacket payload count).1, rfl⟩
  | stop => exact absurd rfl h

end Items

/-! ## Numbered packets -/

def taken (items : List Item) : Nat :=
  (items.map Item.taken).sum

/-- The packets under the numbers from a place on. -/
def render (count : Nat) : List Item → List Report
  | [] => []
  | item :: rest => item.report (numberAt count) :: render (count + item.taken) rest

section Render

variable (count : Nat)

@[simp] theorem taken_cons (item : Item) (rest : List Item) :
    taken (item :: rest) = item.taken + taken rest := by
  simp [taken]

theorem taken_append (first rest : List Item) : taken (first ++ rest) = taken first + taken rest := by
  simp [taken]

theorem render_append (first rest : List Item) :
    render count (first ++ rest) = render count first ++ render (count + taken first) rest := by
  induction first generalizing count with
  | nil => rfl
  | cons item first ih =>
    rw [List.cons_append, render, ih, render, List.cons_append, taken_cons, Nat.add_assoc]

theorem filterMap_payload?_render (items : List Item) :
    (render count items).filterMap payload? = items.filterMap Item.payload? := by
  induction items generalizing count with
  | nil => rfl
  | cons item rest ih =>
    rw [render, List.filterMap_cons, List.filterMap_cons, payload?_report, ih]

/-- Wherever rendered packets are split, the packets themselves are. -/
theorem exists_of_render_eq {items : List Item} {before after : List Report} {report : Report}
    (h : render count items = before ++ report :: after) :
    ∃ first item rest, items = first ++ item :: rest ∧ before = render count first ∧
      report = item.report (numberAt (count + taken first)) ∧
      after = render (count + taken first + item.taken) rest := by
  induction items generalizing count before with
  | nil => exact absurd h.symm (List.append_ne_nil_of_right_ne_nil before nofun)
  | cons item items ih =>
    rw [render] at h
    cases before with
    | nil =>
      obtain ⟨hreport, hafter⟩ := List.cons.inj h
      exact ⟨[], item, items, rfl, rfl, hreport.symm, hafter.symm⟩
    | cons front before =>
      obtain ⟨hfront, hrest⟩ := List.cons.inj h
      obtain ⟨first, other, rest, rfl, rfl, rfl, rfl⟩ := ih _ hrest
      refine ⟨item :: first, other, rest, rfl, by rw [render, hfront], ?_, ?_⟩
      · rw [taken_cons, Nat.add_assoc]
      · rw [taken_cons, Nat.add_assoc count]

/-- The numbers follow one another without a gap or a repetition. -/
theorem map_numberOf?_render (items : List Item) :
    ((render count items).filter (· ≠ [0x7E])).map numberOf? =
      (List.range (taken items)).map fun i => some (numberAt (count + i)) := by
  induction items generalizing count with
  | nil => rfl
  | cons item rest ih =>
    rw [render, taken_cons]
    by_cases hend : item.report (numberAt count) = [0x7E]
    · have hzero : item.taken = 0 := by
        cases item with
        | control => exact nomatch (List.cons.inj hend).1
        | data payload => exact absurd hend (dataPacket_ne_singleton _ _ _)
        | stop => rfl
      rw [List.filter_cons_of_neg (by simp [hend]), ih, hzero, Nat.zero_add, Nat.add_zero]
    · obtain ⟨hnumber, hone⟩ := numberOf?_report count item hend
      rw [List.filter_cons_of_pos (by simp [hend]), List.map_cons, hnumber, ih, hone,
        Nat.add_comm 1, List.range_succ_eq_map, List.map_cons, List.map_map]
      refine congrArg (_ :: ·) (List.map_congr_left fun i _ => ?_)
      show _ = some (numberAt (count + (i + 1)))
      rw [Nat.add_assoc, Nat.add_comm 1]

end Render

/-! ## The data of a file -/

def dataCount (items : List Item) : Nat :=
  (items.filterMap Item.payload?).length

/-- The packets of some pieces of data and of what comes behind them; `unacked` counts the pieces
since the last acknowledgement. -/
def scheduled (token : UInt8) (tail : List Item) : List (List UInt8) → Nat → List Item
  | [], _ => tail
  | piece :: rest, unacked =>
    if unacked + 1 = ackInterval then
      .data piece :: .ack token (window (rest.length + 2)) :: scheduled token tail rest 0
    else .data piece :: scheduled token tail rest (unacked + 1)

/-- Packets that are neither data nor acknowledgements. -/
def Plain (items : List Item) : Prop :=
  ∀ item ∈ items, item.payload? = none ∧ item.isAck = false

section Scheduled

variable {token : UInt8} {tail : List Item}

@[simp] theorem dataCount_nil : dataCount [] = 0 := rfl

@[simp] theorem dataCount_data (piece : List UInt8) (items : List Item) :
    dataCount (.data piece :: items) = dataCount items + 1 := rfl

@[simp] theorem dataCount_ack (packets : UInt8) (items : List Item) :
    dataCount (.ack token packets :: items) = dataCount items := rfl

theorem Plain.filterMap_payload? {items : List Item} (h : Plain items) :
    items.filterMap Item.payload? = [] :=
  List.filterMap_eq_nil_iff.2 fun item hitem => (h item hitem).1

theorem scheduled_append (token : UInt8) (tail : List Item) (pieces : List (List UInt8)) :
    ∀ unacked, scheduled token tail pieces unacked =
      scheduled token [] pieces unacked ++ tail := by
  induction pieces with
  | nil => exact fun _ => rfl
  | cons piece rest ih =>
    intro unacked
    unfold scheduled
    split
    · rw [ih, List.cons_append, List.cons_append]
    · rw [ih, List.cons_append]

theorem filterMap_payload?_scheduled (htail : Plain tail) (pieces : List (List UInt8)) :
    ∀ unacked, (scheduled token tail pieces unacked).filterMap Item.payload? = pieces := by
  induction pieces with
  | nil => exact fun _ => htail.filterMap_payload?
  | cons piece rest ih =>
    intro unacked
    unfold scheduled
    split
    · exact congrArg (piece :: ·) (ih 0)
    · exact congrArg (piece :: ·) (ih (unacked + 1))

/-- What stands in a schedule behind its first packets: a packet of the end, a piece of the data, with
an acknowledgement behind it where an interval ends, or that acknowledgement, which announces what is
still to come. -/
inductive Placed (token : UInt8) (tail : List Item) (pieces unacked : Nat) (first : List Item) :
    Item → List Item → Prop
  | late {item : Item} {rest : List Item} (h : item ∈ tail) :
    Placed token tail pieces unacked first item rest
  | piece {piece : List UInt8} {rest : List Item}
    (h : ackInterval ∣ unacked + dataCount first + 1 →
      ∃ packets later, rest = .ack token packets :: later) :
    Placed token tail pieces unacked first (.data piece) rest
  | ack (start : List Item) (piece : List UInt8) {rest : List Item}
    (hfirst : first = start ++ [.data piece]) (h : ackInterval ∣ unacked + dataCount first) :
    Placed token tail pieces unacked first
      (.ack token (window (pieces - dataCount first + 2))) rest

/-- What stands somewhere stands there too with one piece more in front. -/
theorem Placed.behind {pieces unacked next : Nat} (lead : List Item) {first rest : List Item}
    {item : Item}
    (hlead : dataCount (lead ++ first) = dataCount first + 1)
    (hnext : ∀ n, ackInterval ∣ unacked + (n + 1) ↔ ackInterval ∣ next + n)
    (h : Placed token tail pieces next first item rest) :
    Placed token tail (pieces + 1) unacked (lead ++ first) item rest := by
  cases h with
  | late h => exact .late h
  | piece h =>
    refine .piece fun hdvd => h ?_
    rw [hlead] at hdvd
    exact (hnext (dataCount first + 1)).1 hdvd
  | ack start piece hfirst h =>
    rw [← Nat.add_sub_add_right pieces 1, ← hlead]
    refine .ack (lead ++ start) piece ?_ ?_
    · rw [hfirst, List.append_assoc]
    · rw [hlead]
      exact (hnext _).2 h

theorem placed_scheduled (pieces : List (List UInt8)) :
    ∀ {unacked : Nat} {first rest : List Item} {item : Item}, unacked < ackInterval →
      scheduled token tail pieces unacked = first ++ item :: rest →
      Placed token tail pieces.length unacked first item rest := by
  induction pieces with
  | nil =>
    intro unacked first rest item _ hsplit
    have hsplit : tail = first ++ item :: rest := hsplit
    refine .late ?_
    rw [hsplit]
    exact List.mem_append_right _ List.mem_cons_self
  | cons piece pieces ih =>
    intro unacked first rest item hunacked hsplit
    unfold scheduled at hsplit
    split at hsplit
    · rename_i hend
      have hnext : ∀ n, ackInterval ∣ unacked + (n + 1) ↔ ackInterval ∣ 0 + n := by
        intro n
        rw [show unacked + (n + 1) = ackInterval + (0 + n) by omega]
        exact Nat.dvd_add_right (Nat.dvd_refl ackInterval)
      match first with
      | [] =>
        obtain ⟨rfl, hrest⟩ := List.cons.inj hsplit
        exact .piece fun _ => ⟨_, _, hrest.symm⟩
      | [front] =>
        obtain ⟨rfl, hbehind⟩ := List.cons.inj hsplit
        obtain ⟨rfl, -⟩ := List.cons.inj hbehind
        exact .ack [] piece rfl ⟨1, by simp [hend]⟩
      | front :: second :: first =>
        obtain ⟨rfl, hbehind⟩ := List.cons.inj hsplit
        obtain ⟨rfl, hrest⟩ := List.cons.inj hbehind
        exact (ih (by decide) hrest).behind [_, _] rfl hnext
    · rename_i hend
      have hnext : ∀ n, ackInterval ∣ unacked + (n + 1) ↔ ackInterval ∣ unacked + 1 + n := by
        intro n
        rw [Nat.add_comm n, Nat.add_assoc]
      match first with
      | [] =>
        obtain ⟨rfl, -⟩ := List.cons.inj hsplit
        refine .piece fun hdvd => ?_
        -- the interval is not at its end yet
        have hle := Nat.le_of_dvd (Nat.succ_pos _) hdvd
        rw [dataCount_nil] at hle
        omega
      | front :: first =>
        obtain ⟨rfl, hrest⟩ := List.cons.inj hsplit
        exact (ih (by omega) hrest).behind [_] rfl hnext

end Scheduled

end UniversalRemote.FileTransfer
