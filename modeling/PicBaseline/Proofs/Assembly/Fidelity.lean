import PicBaseline.Program.Assembly
import PicBaseline.Proofs.Assembly.Acceptance
import PicBaseline.Proofs.Instruction

/-!
# Proofs — a program is its image

An image and a program are compared as lists of `Cell`s: words of code with their addresses, and
configuration words.  `HexRecord.cells` reads them off the bytes, `Record.cell` off a program.

* `cells_of_accepted`: what an accepted record gives has the cells of its bytes, in their order.
* `yield_toHexRecord`: a record of a program, written as two bytes, is taken and gives itself.
* `assemble_faithful`: hence the cells of a program are those of its image, and the program comes
  back from its own records.
-/

namespace PicBaseline

open Assembly

/-! ### Cells -/

/-- A word of an image, with its word address where it is code. -/
inductive Cell where
  | code (address : Nat) (word : Word)
  | config (word : Word)
  deriving DecidableEq

/-- The cell of a program's record: an instruction counts as its encoding. -/
def Record.cell : Record → Cell
  | statement s => .code s.address.toNat s.instruction.encode
  | config w    => .config w

/-- The cells of a record: the words of data, low byte first, at consecutive word addresses and
without their upper four bits; the word at the configuration address keeps them. -/
def HexRecord.cells : HexRecord → List Cell
  | .data a bytes =>
      if a = 0x1FFE#16 then [.config (wordAt bytes 0)]
      else (List.range (bytes.length / 2)).map fun i =>
        .code (a.toNat / 2 + i) (wordAt bytes i &&& wordMask)
  | _ => []

/-- The output of accepted data, encoded again, is the content of its cells. -/
theorem map_cell_output {a : Word} {bytes : List Byte}
    (h : DataAccepted Instruction.decode a bytes) :
    (output Instruction.decode (.data a bytes)).map (Option.map Record.cell) =
      (HexRecord.data a bytes).cells.map some := by
  simp only [output, HexRecord.cells]
  by_cases hconfig : a = 0x1FFE#16
  · rw [if_pos hconfig, if_pos hconfig]
    rfl
  · obtain ⟨hlen, hmem⟩ := h.code hconfig
    rw [if_neg hconfig, if_neg hconfig, List.map_map, List.map_map]
    refine List.map_congr_left fun i hi => ?_
    have hi := List.mem_range.mp hi
    obtain ⟨instruction, hins⟩ := h.decodes hconfig i hi
    have haddress : (BitVec.ofNat 8 (a.toNat / 2 + i)).toNat = a.toNat / 2 + i := by
      rw [BitVec.toNat_ofNat]
      exact Nat.mod_eq_of_lt (by omega)
    simp only [Function.comp_apply, hins, Except.toOption, Option.map_some, Record.cell,
      haddress, Instruction.encode_of_decode hins]

/-- **An accepted record gives its cells**, decoded. -/
theorem cells_of_accepted {r : HexRecord} (h : RecordAccepted Instruction.decode r) :
    (yield Instruction.decode r).map Record.cell = r.cells := by
  cases r with
  | data a bytes =>
      refine List.map_injective_iff.mpr (fun _ _ => Option.some.inj) ?_
      have hout := congrArg (List.map (Option.map Record.cell)) (yield_eq_output h)
      rw [map_cell_output h, List.map_map] at hout
      rw [← hout, List.map_map]
      rfl
  | endOfFile | extendedLinearAddress => rfl
  | startSegmentAddress | extendedSegmentAddress | startLinearAddress => exact h.elim

/-! ### Where instructions come from -/

/-- Every instruction of a program is what the decoder made of some word. -/
theorem decoded_of_mem_yield {D : Decoder} {r : HexRecord} {s : Statement}
    (h : .statement s ∈ yield D r) : ∃ w, D w = .ok s.instruction := by
  cases r with
  | data a bytes =>
      simp only [yield, record, dataRecord_eq] at h
      split at h
      · cases h
      split at h
      · split at h
        · simp at h
        · cases h
      split at h
      · cases h
      · obtain ⟨i, -, hi⟩ := List.mem_map.mp (mem_upToFault h)
        obtain ⟨-, instruction, hins, hs⟩ := place_eq_ok.mp hi
        cases hs
        exact ⟨_, hins⟩
  | endOfFile | extendedLinearAddress | startSegmentAddress | extendedSegmentAddress
  | startLinearAddress => cases h

/-! ### Records of their own -/

theorem length_bytes (w : Word) : w.bytes.length = 2 :=
  rfl

theorem wordAt_bytes (w : Word) : wordAt w.bytes 0 = w := by
  have hw := w.isLt
  refine BitVec.eq_of_toNat_eq ?_
  simp only [wordAt, Word.bytes, List.getD_cons_zero, List.getD_cons_succ, Nat.mul_zero,
    Nat.zero_add, BitVec.toNat_setWidth, BitVec.toNat_ushiftRight, BitVec.toNat_ofNat,
    Nat.shiftRight_eq_div_pow]
  omega

theorem placements_bytes (D : Decoder) (a w : Word) :
    placements D a w.bytes = [place D (a.toNat / 2) w] := by
  rw [placements, length_bytes, Nat.div_self (by decide), List.range_one, List.map_singleton,
    wordAt_bytes, Nat.add_zero]

/-- A word stands at twice its address, counted in bytes. -/
theorem toNat_byteAddress (n : Byte) : (n.setWidth 16 <<< 1).toNat = 2 * n.toNat := by
  have hn := n.isLt
  simp only [BitVec.toNat_shiftLeft, BitVec.toNat_setWidth, Nat.shiftLeft_eq]
  omega

/-- A record of a program, written as a data record, gives itself: an instruction has to decode
from its own encoding for it. -/
theorem yield_toHexRecord {D : Decoder} {r : Record}
    (h : ∀ s, r = .statement s → D s.instruction.encode = .ok s.instruction) :
    Passes D r.toHexRecord ∧ yield D r.toHexRecord = [r] := by
  have htaken : ∀ {a w : Word}, dataRecord D a w.bytes = ⟨[r], none⟩ →
      Passes D (.data a w.bytes) ∧ yield D (.data a w.bytes) = [r] :=
    fun hd => ⟨congrArg Intake.fault hd, congrArg Intake.records hd⟩
  cases r with
  | config w =>
      refine htaken ?_
      rw [dataRecord_eq, wordAt_bytes]
      rfl
  | statement s =>
      have hs := s.address.isLt
      have haddress := toNat_byteAddress s.address
      -- An address of one byte is far below the configuration word.
      have hcode : s.address.setWidth 16 <<< 1 ≠ 0x1FFE#16 := fun heq => by
        have := congrArg BitVec.toNat heq
        rw [haddress] at this
        simp only [BitVec.toNat_ofNat] at this
        omega
      have hplace : place D s.address.toNat s.instruction.encode = .ok (.statement s) := by
        refine place_eq_ok.mpr ⟨by omega, s.instruction, h s rfl, ?_⟩
        rw [BitVec.ofNat_toNat, BitVec.setWidth_eq]
      refine htaken ?_
      rw [dataRecord_eq, if_neg (by omega), if_neg hcode, length_bytes, if_neg (by decide),
        placements_bytes, haddress, Nat.mul_div_cancel_left _ (by decide), hplace]
      rfl

/-- A program whose instructions decode from their encodings comes back from its records, with an
end-of-file record or without. -/
theorem assembleWith_toHexRecords {D : Decoder} {p : Program}
    (h : ∀ s, .statement s ∈ p.records → D s.instruction.encode = .ok s.instruction) :
    assembleWith D p.toHexRecords = .ok p ∧
      assembleWith D (p.toHexRecords ++ [.endOfFile]) = .ok p := by
  have hself : ∀ r ∈ p.records, Passes D r.toHexRecord ∧ yield D r.toHexRecord = [r] :=
    fun r hr => yield_toHexRecord fun s hs => h s (hs ▸ hr)
  have hpass : ∀ q ∈ p.toHexRecords, Passes D q := fun q hq => by
    obtain ⟨r, hr, rfl⟩ := List.mem_map.mp hq
    exact (hself r hr).1
  have hyield : p.toHexRecords.flatMap (yield D) = p.records := by
    rw [Program.toHexRecords, List.flatMap_map,
      List.flatMap_congr (g := fun r => [r]) fun r hr => (hself r hr).2, List.flatMap_singleton']
  constructor
  · rw [assembleWith_of_passes hpass, hyield]
  · rw [assembleWith_concat_of_passes hpass rfl, hyield]
    exact congrArg (fun records => Except.ok (Program.mk records)) (List.append_nil p.records)

/-! ### The image of a program -/

/-- **A program is its image.**  Its cells are those of the image it was assembled from, in the same
order and each once; and writing each of its records back as a data record of its own gives an image
that assembles to the same program, with an end-of-file record or without. -/
theorem assemble_faithful {rs : List HexRecord} {p : Program} (h : assemble rs = .ok p) :
    p.records.map Record.cell = rs.flatMap HexRecord.cells ∧
      assemble p.toHexRecords = .ok p ∧ assemble (p.toHexRecords ++ [.endOfFile]) = .ok p := by
  obtain ⟨-, htaken, hrec⟩ := assembleWith_eq_ok.mp h
  refine ⟨?_, assembleWith_toHexRecords fun s hs => ?_⟩
  · rw [hrec, List.map_flatMap]
    exact List.flatMap_congr fun r hr =>
      cells_of_accepted (record_fault_eq_none.mp (htaken r hr))
  · rw [hrec] at hs
    obtain ⟨r, -, hr⟩ := List.mem_flatMap.mp hs
    obtain ⟨w, hw⟩ := decoded_of_mem_yield hr
    exact Instruction.decode_encode_of_decode hw

/-- The last word of memory with its upper four bits set, and a configuration word. -/
theorem assemble_faithful_last_word :
    ∃ p, assemble [.data 0x1FE#16 [0x25#8, 0xF0#8], .data 0x1FFE#16 [0xEB#8, 0xFF#8]] = .ok p ∧
      p.records.map Record.cell = [.code 0xFF 0x025#16, .config 0xFFEB#16] ∧
      assemble p.toHexRecords = .ok p ∧ assemble (p.toHexRecords ++ [.endOfFile]) = .ok p := by
  obtain ⟨p, hp⟩ := returns_of_isSome (x := assemble
    [.data 0x1FE#16 [0x25#8, 0xF0#8], .data 0x1FFE#16 [0xEB#8, 0xFF#8]]) (by decide +kernel)
  obtain ⟨hcells, hback⟩ := assemble_faithful hp
  exact ⟨p, hp, hcells.trans (by decide), hback⟩

end PicBaseline
