import Mathlib.Data.List.Basic
import Mathlib.Data.List.Iterate
import Mathlib.Logic.Function.Basic
import UniversalRemote.Classic.Basic
import UniversalRemote.Proofs.Link.Ending
/-!
# Clocks read back as they were set

A device that keeps what is written to its state memory gives back each time that has room in its
clock, apart from the offset and the zone, which no clock has, and the day of the week, which a
clock of bytes has not (`readClock_setClock`).
-/

namespace UniversalRemote.Classic

open Exchange

/-! ## Cells one after another -/

section Written

variable [DecidableEq α] {next : α → α} {store : α → β} {a b x : α} {values : List β}

/-- The contents of cells after values were written to one after another. -/
def written (next : α → α) : (α → β) → α → List β → α → β
  | store, _, [] => store
  | store, a, value :: values => written next (Function.update store a value) (next a) values

theorem written_of_notMem (h : x ∉ List.iterate next a values.length) :
    written next store a values x = store x := by
  induction values generalizing store a with
  | nil => rfl
  | cons value values ih =>
    rw [List.length_cons, List.iterate, List.mem_cons, not_or] at h
    rw [written, ih h.2, Function.update_of_ne h.1]

/-- Cells that are all different hold what was written to them. -/
theorem map_written (h : (List.iterate next a values.length).Nodup) :
    (List.iterate next a values.length).map (written next store a values) = values := by
  induction values generalizing store a with
  | nil => rfl
  | cons value values ih =>
    rw [List.length_cons, List.iterate, List.nodup_cons] at h
    rw [List.length_cons, List.iterate, List.map_cons, written, ih h.2, written_of_notMem h.1,
      Function.update_self]

end Written

/-! ## Devices with a state memory -/

/-- A device takes a command and then, however long the host would wait, has a report that goes with
the state that it is left in. -/
def Responds (device : Device σ) (s : σ) (command : Report) (post : Report → σ → Prop) : Prop :=
  ∃ t, device.write command s = (.ok (), t) ∧
    ∀ timeout, ∃ report u, device.read timeout t = (.ok report, u) ∧ post report u

def IsDone (space : UInt8) (report : Report) : Prop :=
  ∃ code rest, kind code = done ∧ report = code :: space :: rest

/-- How the cells of the state memory are read and written over a link. -/
structure Cells (α β : Type) where
  readCommand : α → Report
  writeCommand : α → β → Report
  /-- The responses that tell the contents of a cell. -/
  Tells : β → Report → Prop

def byteCells : Cells UInt8 UInt8 where
  readCommand a := [0xB2, stateSpace, a]
  writeCommand a v := [0xA3, stateSpace, a, v]
  Tells v report := ∃ rest, report = 0xC2 :: stateSpace :: v :: rest

def wordCells : Cells UInt16 UInt16 where
  readCommand a := 0xB3 :: stateSpace :: ByteOrder.big.bytes16 a
  writeCommand a v :=
    0xA5 :: stateSpace :: (ByteOrder.big.bytes16 a ++ ByteOrder.big.bytes16 v)
  Tells v report := ∃ code rest, kind code = 0xC0 ∧
    report = code :: stateSpace :: (ByteOrder.big.bytes16 v ++ rest)

/-- In certain states, a device tells the contents of each cell and takes each value into its cell.
To be told that the clock was set changes no cell. -/
structure Cells.KeptBy [DecidableEq α] (cells : Cells α β) (device : Device σ) (ready : σ → Prop)
    (store : σ → α → β) : Prop where
  reads : ∀ s, ready s → ∀ a, Responds device s (cells.readCommand a) fun report t =>
    cells.Tells (store s a) report ∧ ready t ∧ store t = store s
  writes : ∀ s, ready s → ∀ a v, Responds device s (cells.writeCommand a v) fun report t =>
    IsDone stateSpace report ∧ ready t ∧ store t = Function.update (store s) a v
  recalculates : ∀ s, ready s → Responds device s [0xA1, 0x08] fun report t =>
    IsDone 0x08 report ∧ ready t ∧ store t = store s

/-- A device has the state memory of an architecture. -/
structure KeepsState (architecture : UInt16) (device : Device σ) (ready : σ → Prop) : Prop where
  bytes : architecture < wordClock → ∃ store, byteCells.KeptBy device ready store
  words : ¬ architecture < wordClock → ∃ store, wordCells.KeptBy device ready store

theorem exists_bytes16 (w : UInt16) :
    ∃ high low, ByteOrder.big.bytes16 w = [high, low] ∧ ByteOrder.big.word16 [high, low] = w := by
  obtain ⟨high, low, h⟩ := List.length_eq_two.1 (ByteOrder.length_bytes .big 2 w.toNat)
  have hword := ByteOrder.word16_bytes16 .big w
  rw [ByteOrder.bytes16, h] at hword
  exact ⟨high, low, h, hword⟩

section Responds

variable {device : Device σ} {s : σ} {P : σ → Prop}

theorem Responds.ending_receivePacket {command : Report} {post : Report → σ → Prop}
    (h : Responds device s command post) (hne : ∀ t, ¬ post [] t) (timeout : Nat)
    (f : UInt8 × List UInt8 → Exchange RemoteError α) :
    ∃ code body t, post (code :: body) t ∧
      (do send command; f (← receivePacket timeout) : Exchange RemoteError α).ending device s =
        (f (code, body)).ending device t := by
  obtain ⟨sent, hwrite, hreads⟩ := h
  obtain ⟨report, t, hread, hpost⟩ := hreads timeout
  cases report with
  | nil => exact (hne t hpost).elim
  | cons code body =>
    have hsend : (send command).ending device s = (.ok (), sent) := by
      rw [ending_send, hwrite]
      rfl
    have hreceive : (receive timeout).ending device sent = (.ok (code :: body), t) := by
      rw [ending_receive, hread]
      rfl
    have hpacket : (receivePacket timeout).ending device sent = (.ok (code, body), t) := by
      rw [receivePacket, ending_bind_ok hreceive]
      rfl
    exact ⟨code, body, t, hpost, by rw [ending_bind_ok hsend, ending_bind_ok hpacket]⟩

theorem ending_writeSpace {code space : UInt8} {body : List UInt8}
    (h : Responds device s (code :: space :: body) fun report t => IsDone space report ∧ P t) :
    ∃ t, P t ∧ (writeSpace code space body).ending device s = (.ok (), t) := by
  obtain ⟨answer, rest, t, ⟨hdone, hP⟩, hending⟩ := h.ending_receivePacket
    (fun t ⟨⟨_, _, _, h⟩, _⟩ => by cases h) promptWait _
  obtain ⟨_, rest, hkind, heq⟩ := hdone
  obtain ⟨rfl, rfl⟩ := List.cons.inj heq
  refine ⟨t, hP, hending.trans ?_⟩
  dsimp only
  rw [if_neg (by simp [hkind])]
  rfl

theorem ending_readBytes {a v : UInt8}
    (h : Responds device s (byteCells.readCommand a) fun report t => byteCells.Tells v report ∧ P t)
    (n : Nat) : ∃ t, P t ∧ (readBytes stateSpace a (n + 1)).ending device s =
      (do return v :: (← readBytes stateSpace (a + 1) n) :
        Exchange RemoteError (List UInt8)).ending device t := by
  obtain ⟨code, body, t, ⟨htells, hP⟩, hending⟩ := h.ending_receivePacket
    (fun t ⟨⟨_, h⟩, _⟩ => by cases h) promptWait _
  obtain ⟨rest, heq⟩ := htells
  obtain ⟨rfl, rfl⟩ := List.cons.inj heq
  refine ⟨t, hP, hending.trans ?_⟩
  dsimp only
  rw [if_neg (by simp)]

theorem ending_readWords {a v : UInt16}
    (h : Responds device s (wordCells.readCommand a) fun report t => wordCells.Tells v report ∧ P t)
    (n : Nat) : ∃ t, P t ∧ (readWords stateSpace a (n + 1)).ending device s =
      (do return v :: (← readWords stateSpace (a + 1) n) :
        Exchange RemoteError (List UInt16)).ending device t := by
  obtain ⟨code, body, t, ⟨htells, hP⟩, hending⟩ := h.ending_receivePacket
    (fun t ⟨⟨_, _, _, h⟩, _⟩ => by cases h) promptWait _
  obtain ⟨_, rest, hkind, heq⟩ := htells
  obtain ⟨high, low, hbytes, hword⟩ := exists_bytes16 v
  obtain ⟨rfl, rfl⟩ := List.cons.inj heq
  rw [hbytes] at hending
  refine ⟨t, hP, hending.trans ?_⟩
  dsimp only [List.cons_append, List.nil_append]
  rw [if_neg (by simp [hkind]), hword]

end Responds

section KeptBy

variable {device : Device σ} {ready : σ → Prop} {store : σ → α → β} {s : σ}

/-- Cells are read one after another as they are, if each is. -/
theorem ending_reads {next : α → α} {f : α → Nat → Exchange RemoteError (List β)}
    (hzero : ∀ a, f a 0 = pure [])
    (hsucc : ∀ s, ready s → ∀ a n, ∃ t, (ready t ∧ store t = store s) ∧
      (f a (n + 1)).ending device s =
        (do return store s a :: (← f (next a) n) : Exchange RemoteError (List β)).ending device t)
    (hs : ready s) (a : α) (n : Nat) :
    ∃ t, (f a n).ending device s = (.ok ((List.iterate next a n).map (store s)), t) := by
  induction n generalizing s a with
  | zero =>
    rw [hzero]
    exact ⟨s, rfl⟩
  | succ n ih =>
    obtain ⟨t, ⟨ht, hstore⟩, hending⟩ := hsucc s hs a n
    obtain ⟨u, hrest⟩ := ih ht (next a)
    refine ⟨u, ?_⟩
    rw [hending, ending_bind_ok hrest, hstore]
    rfl

/-- Values are written one after another as `written` says, if each is. -/
theorem ending_writes [DecidableEq α] {next : α → α} {f : α → List β → Exchange RemoteError Unit}
    (hnil : ∀ a, f a [] = pure ())
    (hcons : ∀ s, ready s → ∀ a value values, ∃ t,
      (ready t ∧ store t = Function.update (store s) a value) ∧
      (f a (value :: values)).ending device s = (f (next a) values).ending device t)
    (hs : ready s) (a : α) (values : List β) :
    ∃ t, ready t ∧ store t = written next (store s) a values ∧
      (f a values).ending device s = (.ok (), t) := by
  induction values generalizing s a with
  | nil =>
    rw [hnil]
    exact ⟨s, hs, rfl, rfl⟩
  | cons value values ih =>
    obtain ⟨t, ⟨ht, hstore⟩, hending⟩ := hcons s hs a value values
    obtain ⟨u, hu, hwritten, hrest⟩ := ih ht (next a)
    rw [hstore] at hwritten
    exact ⟨u, hu, hwritten, hending.trans hrest⟩

end KeptBy

/-! ## A time in a state memory -/

/-- A clock of the architecture has room for a time. -/
structure Keepable (architecture : UInt16) (t : DateTime) : Prop where
  month : 1 ≤ t.month
  day : 1 ≤ t.day
  year : 2000 ≤ t.year
  year_le : architecture < wordClock → t.year ≤ 2255
  weekday_le : ¬ architecture < wordClock → t.weekday ≤ 7

/-- What a clock of the architecture keeps of a time. -/
def kept (architecture : UInt16) (t : DateTime) : DateTime :=
  { t with
    weekday := if architecture < wordClock then 7 else t.weekday
    offset := 0
    zone := "" }

theorem predecessor_add_one {b : UInt8} (h : 1 ≤ b) : predecessor b + 1 = b := by
  have hne : b ≠ 0 := by
    rintro rfl
    exact absurd h (by decide)
  rw [predecessor, if_neg hne, UInt8.sub_add_cancel]

theorem checkedSum16_predecessor {b : UInt8} (h : 1 ≤ b) :
    checkedSum16 (predecessor b).toUInt16 1 = some b.toUInt16 := by
  have hb := b.toNat_lt
  have hpos : 1 ≤ b.toNat := UInt8.le_iff_toNat_le.1 h
  have hnat : (predecessor b).toNat + 1 = b.toNat := by
    have := congrArg UInt8.toNat (predecessor_add_one h)
    rw [UInt8.toNat_add] at this
    have := (predecessor b).toNat_lt
    change ((predecessor b).toNat + 1) % 256 = b.toNat at *
    omega
  have hroom : (predecessor b).toUInt16.toNat + (1 : UInt16).toNat < 0x10000 := by
    change (predecessor b).toNat + 1 < 0x10000
    omega
  rw [checkedSum16, if_pos hroom, Option.some.injEq, ← UInt16.toNat_inj, UInt16.toNat_add,
    Nat.mod_eq_of_lt hroom]
  exact hnat

theorem toNat_yearsSince2000 {year : UInt16} (h : 2000 ≤ year) :
    (flooredDifference16 year 2000).toNat = year.toNat - 2000 := by
  rw [flooredDifference16, if_pos h, UInt16.toNat_sub_of_le _ _ h]
  rfl

theorem timeOfBytes_bytesOfTime {architecture : UInt16} {t : DateTime}
    (h : Keepable architecture t) (harchitecture : architecture < wordClock) :
    timeOfBytes (bytesOfTime t) = kept architecture t := by
  have hyear : 2000 + (flooredDifference16 t.year 2000).toUInt8.toUInt16 = t.year := by
    have hle : t.year.toNat ≤ 2255 := UInt16.le_iff_toNat_le.1 (h.year_le harchitecture)
    have hge : 2000 ≤ t.year.toNat := UInt16.le_iff_toNat_le.1 h.year
    rw [← UInt16.toNat_inj, UInt16.toNat_add]
    change (2000 + (flooredDifference16 t.year 2000).toNat % 256) % 65536 = _
    rw [toNat_yearsSince2000 h.year]
    omega
  simp only [timeOfBytes, bytesOfTime, kept, List.getD_cons_zero, List.getD_cons_succ, hyear,
    predecessor_add_one h.month, predecessor_add_one h.day, if_pos harchitecture]

theorem timeOfWords_wordsOfTime {architecture : UInt16} {t : DateTime}
    (h : Keepable architecture t) (harchitecture : ¬ architecture < wordClock) :
    timeOfWords (wordsOfTime t) = some (kept architecture t) := by
  have hyear : checkedSum16 2000 (flooredDifference16 t.year 2000) = some t.year := by
    have hge : 2000 ≤ t.year.toNat := UInt16.le_iff_toNat_le.1 h.year
    have hlt := t.year.toNat_lt
    have hsum : (2000 : UInt16).toNat + (flooredDifference16 t.year 2000).toNat = t.year.toNat := by
      rw [toNat_yearsSince2000 h.year]
      exact Nat.add_sub_cancel' hge
    rw [checkedSum16, if_pos (by omega), Option.some.injEq, ← UInt16.toNat_inj, UInt16.toNat_add,
      hsum]
    exact Nat.mod_eq_of_lt hlt
  have hweekday : (t.weekday.toUInt16 &&& 7).toUInt8 = t.weekday := by
    have hle : t.weekday.toNat ≤ 7 := UInt8.le_iff_toNat_le.1 (h.weekday_le harchitecture)
    rw [← UInt8.toNat_inj]
    change (t.weekday.toNat &&& 7) % 256 = _
    rw [Nat.and_two_pow_sub_one_eq_mod _ 3]
    omega
  simp [timeOfWords, wordsOfTime, kept, hyear, hweekday, checkedSum16_predecessor h.month,
    checkedSum16_predecessor h.day, if_neg harchitecture]

section Clock

variable {device : Device σ} {ready : σ → Prop} {s : σ} {architecture : UInt16} {t : DateTime}

theorem ending_readClockOf_bytes {store : σ → UInt8 → UInt8}
    (h : byteCells.KeptBy device ready store) (harchitecture : architecture < wordClock)
    (hs : ready s) : ∃ u, (readClockOf architecture).ending device s =
      (.ok (timeOfBytes ((List.iterate (· + 1) 0 6).map (store s))), u) := by
  obtain ⟨u, hread⟩ := ending_reads (fun _ => rfl)
    (fun s hs a n => ending_readBytes (h.reads s hs a) n) hs 0 6
  refine ⟨u, ?_⟩
  rw [readClockOf, if_pos harchitecture, ending_bind_ok hread]
  rfl

theorem ending_readClockOf_words {store : σ → UInt16 → UInt16}
    (h : wordCells.KeptBy device ready store) (harchitecture : ¬ architecture < wordClock)
    (hs : ready s)
    (htime : timeOfWords ((List.iterate (· + 1) 0 7).map (store s)) = some t) :
    ∃ u, (readClockOf architecture).ending device s = (.ok t, u) := by
  obtain ⟨u, hread⟩ := ending_reads (fun _ => rfl)
    (fun s hs a n => ending_readWords (h.reads s hs a) n) hs 0 7
  refine ⟨u, ?_⟩
  rw [readClockOf, if_neg harchitecture, ending_bind_ok hread, ending_ofChecked_some htime]

theorem ending_setClockOf_bytes {store : σ → UInt8 → UInt8}
    (h : byteCells.KeptBy device ready store) (harchitecture : architecture < wordClock)
    (hs : ready s) (t : DateTime) :
    ∃ u, ready u ∧ store u = written (· + 1) (store s) 0 (bytesOfTime t) ∧
      (setClockOf architecture t).ending device s = (.ok (), u) := by
  have hcons : ∀ s, ready s → ∀ a value values, ∃ u,
      (ready u ∧ store u = Function.update (store s) a value) ∧
      (writeBytes stateSpace a (value :: values)).ending device s =
        (writeBytes stateSpace (a + 1) values).ending device u := by
    intro s hs a value values
    obtain ⟨u, hkept, hwrite⟩ := ending_writeSpace (h.writes s hs a value)
    exact ⟨u, hkept, by rw [writeBytes, ending_bind_ok hwrite]⟩
  obtain ⟨u, hu, hstore, hwrite⟩ := ending_writes (fun _ => rfl) hcons hs 0 (bytesOfTime t)
  refine ⟨u, hu, hstore, ?_⟩
  rw [setClockOf, if_pos harchitecture, ending_bind_ok hwrite]
  exact ending_progress ..

theorem ending_setClockOf_words {store : σ → UInt16 → UInt16}
    (h : wordCells.KeptBy device ready store) (harchitecture : ¬ architecture < wordClock)
    (hs : ready s) (t : DateTime) :
    ∃ u, ready u ∧ store u = written (· + 1) (store s) 0 (wordsOfTime t) ∧
      (setClockOf architecture t).ending device s = (.ok (), u) := by
  have hcons : ∀ s, ready s → ∀ a value values, ∃ u,
      (ready u ∧ store u = Function.update (store s) a value) ∧
      (writeWords stateSpace a (value :: values)).ending device s =
        (writeWords stateSpace (a + 1) values).ending device u := by
    intro s hs a value values
    obtain ⟨u, hkept, hwrite⟩ := ending_writeSpace (h.writes s hs a value)
    exact ⟨u, hkept, by rw [writeWords, ending_bind_ok hwrite]⟩
  obtain ⟨u, hu, hstore, hwrite⟩ := ending_writes (fun _ => rfl) hcons hs 0 (wordsOfTime t)
  by_cases hfirst : architecture = wordClock
  · obtain ⟨v, ⟨hv, hkept⟩, htold⟩ := ending_writeSpace (h.recalculates u hu)
    refine ⟨v, hv, hkept.trans hstore, ?_⟩
    rw [setClockOf, if_neg harchitecture, ending_bind_ok hwrite, if_pos hfirst,
      ending_bind_ok htold]
    exact ending_progress ..
  · refine ⟨u, hu, hstore, ?_⟩
    rw [setClockOf, if_neg harchitecture, ending_bind_ok hwrite, if_neg hfirst]
    exact ending_progress ..

theorem exists_ending_clockOf (hkeeps : KeepsState architecture device ready)
    (ht : Keepable architecture t) (hs : ready s) :
    ∃ u v, (setClockOf architecture t).ending device s = (.ok (), u) ∧
      (readClockOf architecture).ending device u = (.ok (kept architecture t), v) := by
  by_cases harchitecture : architecture < wordClock
  · obtain ⟨store, h⟩ := hkeeps.bytes harchitecture
    obtain ⟨u, hu, hstore, hset⟩ := ending_setClockOf_bytes h harchitecture hs t
    obtain ⟨v, hread⟩ := ending_readClockOf_bytes h harchitecture hu
    have hstate : (List.iterate (· + 1) 0 6).map (store u) = bytesOfTime t :=
      by
      have hdistinct : (List.iterate (· + 1) (0 : UInt8) 6).Nodup := by decide
      rw [hstore]
      exact map_written hdistinct
    rw [hstate, timeOfBytes_bytesOfTime ht harchitecture] at hread
    exact ⟨u, v, hset, hread⟩
  · obtain ⟨store, h⟩ := hkeeps.words harchitecture
    obtain ⟨u, hu, hstore, hset⟩ := ending_setClockOf_words h harchitecture hs t
    have hstate : (List.iterate (· + 1) 0 7).map (store u) = wordsOfTime t :=
      by
      have hdistinct : (List.iterate (· + 1) (0 : UInt16) 7).Nodup := by decide
      rw [hstore]
      exact map_written hdistinct
    obtain ⟨v, hread⟩ := ending_readClockOf_words h harchitecture hu
      (hstate ▸ timeOfWords_wordsOfTime ht harchitecture)
    exact ⟨u, v, hset, hread⟩

/-- Against a device that keeps the state memory of its architecture, a time that the clock has room
for is set, and then read back as what the clock keeps of it. -/
theorem readClock_setClock {c : Classic} {geometry : Geometry} (hknown : c.geometry = some geometry)
    (hkeeps : KeepsState geometry.architecture device ready)
    (ht : Keepable geometry.architecture t) (hs : ready s) :
    ((c.setClock t).ending device s).1 = .ok () ∧
      (c.readClock.ending device ((c.setClock t).ending device s).2).1 =
        .ok (kept geometry.architecture t) := by
  have hidentified (s : σ) : c.known.ending device s = (.ok geometry, s) := by
    rw [known, hknown]
    rfl
  obtain ⟨u, v, hset, hread⟩ := exists_ending_clockOf hkeeps ht hs
  have hset : (c.setClock t).ending device s = (.ok (), u) := by
    rw [setClock, ending_bind_ok (hidentified s), hset]
  have hread : c.readClock.ending device u = (.ok (kept geometry.architecture t), v) := by
    rw [readClock, ending_bind_ok (hidentified u), hread]
  rw [hset, hread]
  exact ⟨rfl, rfl⟩

end Clock

/-! ## A remote that keeps what it is told -/

/-- A remote that has a state memory of bytes and one of words, and the response that the host has
not read yet. -/
structure Clockwork where
  bytes : UInt8 → UInt8
  words : UInt16 → UInt16
  response : Report

def clockwork : Device Clockwork where
  write
    | [0xB2, 0x01, a], s => (.ok (), { s with response := [0xC2, 0x01, s.bytes a] })
    | [0xA3, 0x01, a, v], s =>
      (.ok (), { s with bytes := Function.update s.bytes a v, response := [0xF0, 0x01] })
    | [0xB3, 0x01, high, low], s =>
      let value := s.words (ByteOrder.big.word16 [high, low])
      (.ok (), { s with response := 0xC2 :: 0x01 :: ByteOrder.big.bytes16 value })
    | [0xA5, 0x01, high, low, v, w], s =>
      let a := ByteOrder.big.word16 [high, low]
      let words := Function.update s.words a (ByteOrder.big.word16 [v, w])
      (.ok (), { s with words, response := [0xF0, 0x01] })
    | [0xA1, space], s => (.ok (), { s with response := [0xF0, space] })
    | _, s => (.ok (), s)
  read _ s := (.ok s.response, s)

theorem keepsState_clockwork (architecture : UInt16) :
    KeepsState architecture clockwork fun _ => True where
  bytes _ := by
    refine ⟨Clockwork.bytes, fun s _ a => ?_, fun s _ a v => ?_, fun s _ => ?_⟩
    · exact ⟨_, rfl, fun _ => ⟨_, _, rfl, ⟨[], rfl⟩, trivial, rfl⟩⟩
    · exact ⟨_, rfl, fun _ => ⟨_, _, rfl, ⟨0xF0, [], rfl, rfl⟩, trivial, rfl⟩⟩
    · exact ⟨_, rfl, fun _ => ⟨_, _, rfl, ⟨0xF0, [], rfl, rfl⟩, trivial, rfl⟩⟩
  words _ := by
    refine ⟨Clockwork.words, fun s _ a => ?_, fun s _ a v => ?_, fun s _ => ?_⟩
    · obtain ⟨high, low, hbytes, hword⟩ := exists_bytes16 a
      simp only [wordCells, hbytes]
      refine ⟨_, rfl, fun _ => ⟨_, _, rfl, ⟨0xC2, [], rfl, ?_⟩, trivial, rfl⟩⟩
      rw [hword, List.append_nil]
      rfl
    · obtain ⟨high, low, hbytes, hword⟩ := exists_bytes16 a
      obtain ⟨v₁, v₂, hvalue, hv⟩ := exists_bytes16 v
      simp only [wordCells, hbytes, hvalue]
      refine ⟨_, rfl, fun _ => ⟨_, _, rfl, ⟨0xF0, [], rfl, rfl⟩, trivial, ?_⟩⟩
      rw [hword, hv]
    · exact ⟨_, rfl, fun _ => ⟨_, _, rfl, ⟨0xF0, [], rfl, rfl⟩, trivial, rfl⟩⟩

/-- Of the latest times that either kind of clock has room for, a clock of bytes forgets the day of
the week, and none keeps the offset. -/
theorem readClock_setClock_clockwork :
    let s : Clockwork := ⟨fun _ => 0, fun _ => 0, []⟩
    let early : Classic := ⟨0, some ⟨1, 7⟩⟩
    let late : Classic := ⟨0, some ⟨1, 8⟩⟩
    let t : DateTime := ⟨2255, 255, 255, 255, 255, 255, 3, 120, "CEST"⟩
    let u : DateTime := ⟨65535, 255, 255, 255, 255, 255, 3, 120, "CEST"⟩
    (∀ architecture, KeepsState architecture clockwork fun _ => True) ∧
      Keepable 7 t ∧ Keepable 8 u ∧
      (((early.setClock t).ending clockwork s).1 = .ok () ∧
        (early.readClock.ending clockwork ((early.setClock t).ending clockwork s).2).1 =
          .ok ⟨2255, 255, 255, 255, 255, 255, 7, 0, ""⟩) ∧
      ((late.setClock u).ending clockwork s).1 = .ok () ∧
        (late.readClock.ending clockwork ((late.setClock u).ending clockwork s).2).1 =
          .ok ⟨65535, 255, 255, 255, 255, 255, 3, 0, ""⟩ := by
  intro s early late t u
  have ht : Keepable 7 t := by constructor <;> decide
  have hu : Keepable 8 u := by constructor <;> decide
  exact ⟨keepsState_clockwork, ht, hu,
    readClock_setClock (c := early) rfl (keepsState_clockwork 7) ht trivial,
    readClock_setClock (c := late) rfl (keepsState_clockwork 8) hu trivial⟩

end UniversalRemote.Classic
