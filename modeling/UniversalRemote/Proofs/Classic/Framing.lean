import UniversalRemote.Proofs.Classic.Simulation
/-!
# Framings that lose nothing

What a framing needs so that every chunk can be cut into its packets and blocks, and put together
again on the other side: block codes tell block sizes apart, and there are packets and blocks of a
single byte. Both framings in use have it.
-/

namespace UniversalRemote.Classic

/-- Chunks of at most 1024 bytes can be cut into packets and blocks and put together again. -/
structure Framing.Lawful (f : Framing) : Prop where
  readSize_pos : 0 < f.readSize
  readSize_le : f.readSize ≤ 1024
  writeSize_pos : 0 < f.writeSize
  writeSize_le : f.writeSize ≤ 1024
  size_pos : ∀ b ∈ f.blocks, 0 < b.2
  kind_block : ∀ b ∈ f.blocks, kind (0x40 ||| b.1) = 0x40
  find?_block : ∀ b ∈ f.blocks, f.blocks.find? (·.1 == lengthCode (0x40 ||| b.1)) = some b
  single_block : ∃ b ∈ f.blocks, b.2 = 1
  single_packet : ∃ code ∈ packetCodes, f.payload code = 1

theorem lawful_early : Framing.early.Lawful where
  readSize_pos := by decide
  readSize_le := by decide
  writeSize_pos := by decide
  writeSize_le := by decide
  size_pos := by decide
  kind_block := by decide
  find?_block := by decide
  single_block := by decide
  single_packet := by decide

theorem lawful_current : Framing.current.Lawful where
  readSize_pos := by decide
  readSize_le := by decide
  writeSize_pos := by decide
  writeSize_le := by decide
  size_pos := by decide
  kind_block := by decide
  find?_block := by decide
  single_block := by decide
  single_packet := by decide

theorem lawful_ofProtocol (version : UInt8) : (Framing.ofProtocol version).Lawful := by
  unfold Framing.ofProtocol
  split
  · exact lawful_early
  · exact lawful_current

variable {f : Framing}

/-- The chunks of a transfer cover its bytes, and none of them is empty. -/
theorem Framing.Lawful.count_bounds (hf : f.Lawful) (length : Nat) :
    length ≤ (length + f.readSize - 1) / f.readSize * f.readSize ∧
      (length + f.readSize - 1) / f.readSize * f.readSize < length + f.readSize := by
  have hpos := hf.readSize_pos
  have hdiv := Nat.div_add_mod (length + f.readSize - 1) f.readSize
  have hmod := Nat.mod_lt (length + f.readSize - 1) hpos
  rw [Nat.mul_comm] at hdiv
  omega

/-! ## Packets -/

theorem kind_packetCode {code : UInt8} (h : code ∈ packetCodes) : kind (0x60 ||| code) = 0x60 := by
  have hall : (packetCodes.all fun code => kind (0x60 ||| code) == 0x60) = true := by decide
  exact eq_of_beq (List.all_eq_true.1 hall code h)

theorem lengthCode_packetCode {code : UInt8} (h : code ∈ packetCodes) :
    lengthCode (0x60 ||| code) = lengthCode code := by
  have hall : (packetCodes.all fun code => lengthCode (0x60 ||| code) == lengthCode code) = true := by
    decide
  exact eq_of_beq (List.all_eq_true.1 hall code h)

theorem payload_packetCode {code : UInt8} (h : code ∈ packetCodes) :
    f.payload (0x60 ||| code) = f.payload code := by
  rw [Framing.payload, Framing.payload, lengthCode_packetCode h]

theorem packets_zero (m : Memory) (address : Nat) (number : UInt8) :
    packets f m address 0 number = [] := by
  rw [packets]
  split
  · rfl
  · rename_i h
    have := List.find?_some h
    simp at this
    omega

/-- Bytes that are left fill a packet, and the packets of the rest follow it. -/
theorem Framing.Lawful.exists_packets_eq (hf : f.Lawful) (m : Memory) (address : Nat) {length : Nat}
    (hlength : 0 < length) (number : UInt8) :
    ∃ code ∈ packetCodes, 0 < f.payload code ∧ f.payload code ≤ length ∧
      packets f m address length number =
        ((0x60 ||| code) :: number :: m.slice address (f.payload code)) ::
          packets f m (address + f.payload code) (length - f.payload code) (number + 0x11) := by
  rw [packets]
  split
  · rename_i h
    obtain ⟨code, hcode, hone⟩ := hf.single_packet
    have := List.find?_eq_none.1 h code hcode
    simp [hone] at this
    omega
  · rename_i code h
    have hfits := List.find?_some h
    simp only [Bool.and_eq_true, decide_eq_true_eq] at hfits
    exact ⟨code, List.mem_of_find?_eq_some h, hfits.1, hfits.2, rfl⟩

/-! ## Blocks -/

theorem blockReports_nil (blocks : List (UInt8 × Nat)) : blockReports blocks [] = [] := by
  rw [blockReports]
  split
  · rfl
  · rename_i h
    have := List.find?_some h
    simp at this
    omega

/-- Data that is left fills a block, and the blocks of the rest follow it. -/
theorem Framing.Lawful.exists_blockReports_eq (hf : f.Lawful) {data : List UInt8} (hdata : data ≠ []) :
    ∃ b ∈ f.blocks, 0 < b.2 ∧ b.2 ≤ data.length ∧
      blockReports f.blocks data =
        ((0x40 ||| b.1) :: data.take b.2) :: blockReports f.blocks (data.drop b.2) := by
  rw [blockReports]
  split
  · rename_i h
    obtain ⟨b, hb, hone⟩ := hf.single_block
    have := List.find?_eq_none.1 h b hb
    simp [hone] at this
    exact absurd this hdata
  · rename_i code size h
    have hfits := List.find?_some h
    simp only [Bool.and_eq_true, decide_eq_true_eq] at hfits
    exact ⟨(code, size), List.mem_of_find?_eq_some h, hfits.1, hfits.2, rfl⟩

end UniversalRemote.Classic
