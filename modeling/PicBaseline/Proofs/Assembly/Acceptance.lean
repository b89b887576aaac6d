import PicBaseline.Proofs.Assembly.Run
import PicBaseline.Proofs.Assembly.Words

/-!
# Proofs — which images are accepted

The records that make up a program, said without the walk.  `RecordFits r` is what a record has to
be before any word of it is decoded, `RecordAccepted D r` adds that its code decodes, and
`Acceptable D rs` where an end-of-file record may stand.  `output D r` lists what an accepted record
gives, word by word.

* `record_fault_eq_none`: a record is taken exactly when it is accepted, and then gives its output.
* `assembleWith_ok_iff_acceptable`: the same of a whole image, for every decoder.
-/

namespace PicBaseline.Assembly

variable {D : Decoder}

/-! ### One record -/

/-- A data record starts at a whole word.  At the configuration word it holds that word; anywhere
else it holds whole words that end inside the 256 words of memory. -/
structure DataFits (a : Word) (bytes : List Byte) : Prop where
  even : a.toNat % 2 = 0
  config : a = 0x1FFE#16 → bytes.length = 2
  code : a ≠ 0x1FFE#16 →
    bytes.length % 2 = 0 ∧ (bytes.length = 0 ∨ a.toNat / 2 + bytes.length / 2 ≤ 256)

/-- A record whose place, length and kind are in order, whatever its words of code are. -/
def RecordFits : HexRecord → Prop
  | .data a bytes            => DataFits a bytes
  | .endOfFile               => True
  | .extendedLinearAddress u => u = 0#16
  | .startSegmentAddress     => False
  | .extendedSegmentAddress  => False
  | .startLinearAddress      => False

instance (a : Word) (bytes : List Byte) : Decidable (DataFits a bytes) :=
  decidable_of_iff
    (a.toNat % 2 = 0 ∧ (a = 0x1FFE#16 → bytes.length = 2) ∧ (a ≠ 0x1FFE#16 →
      bytes.length % 2 = 0 ∧ (bytes.length = 0 ∨ a.toNat / 2 + bytes.length / 2 ≤ 256)))
    ⟨fun ⟨heven, hconfig, hcode⟩ => ⟨heven, hconfig, hcode⟩,
      fun h => ⟨h.even, h.config, h.code⟩⟩

instance : DecidablePred RecordFits
  | .data a bytes            => inferInstanceAs (Decidable (DataFits a bytes))
  | .endOfFile               => .isTrue trivial
  | .extendedLinearAddress u => inferInstanceAs (Decidable (u = 0#16))
  | .startSegmentAddress     => .isFalse id
  | .extendedSegmentAddress  => .isFalse id
  | .startLinearAddress      => .isFalse id

/-- A data record is accepted if it fits and each of its words of code decodes. -/
structure DataAccepted (D : Decoder) (a : Word) (bytes : List Byte) : Prop
    extends DataFits a bytes where
  decodes : a ≠ 0x1FFE#16 →
    ∀ i < bytes.length / 2, ∃ instruction, D (wordAt bytes i) = .ok instruction

/-- Only data has words to decode: a record of any other kind is accepted if it fits. -/
def RecordAccepted (D : Decoder) : HexRecord → Prop
  | .data a bytes => DataAccepted D a bytes
  | r             => RecordFits r

/-- What a record gives to the program, in order; `none` stands for a word that does not decode. -/
def output (D : Decoder) : HexRecord → List (Option Record)
  | .data a bytes =>
      if a = 0x1FFE#16 then [some (.config (wordAt bytes 0))]
      else (List.range (bytes.length / 2)).map fun i =>
        (D (wordAt bytes i)).toOption.map fun instruction =>
          .statement ⟨BitVec.ofNat 8 (a.toNat / 2 + i), instruction⟩
  | _ => []

/-- Every word of a record is placed when the last one is in memory and all decode. -/
theorem placements_ok_iff {a : Word} {bytes : List Byte} :
    (∀ x ∈ placements D a bytes, ∃ r, x = .ok r) ↔
      (bytes.length / 2 = 0 ∨ a.toNat / 2 + bytes.length / 2 ≤ 256) ∧
        ∀ i < bytes.length / 2, ∃ instruction, D (wordAt bytes i) = .ok instruction := by
  have hplace : (∀ x ∈ placements D a bytes, ∃ r, x = .ok r) ↔
      ∀ i < bytes.length / 2,
        a.toNat / 2 + i ≤ 0xFF ∧ ∃ instruction, D (wordAt bytes i) = .ok instruction := by
    simp [placements, place_eq_ok]
  rw [hplace]
  constructor
  · intro h
    refine ⟨?_, fun i hi => (h i hi).2⟩
    rcases Nat.eq_zero_or_pos (bytes.length / 2) with h0 | hpos
    · exact Or.inl h0
    · have := (h (bytes.length / 2 - 1) (by omega)).1
      exact Or.inr (by omega)
  · rintro ⟨hmem, hdec⟩ i hi
    exact ⟨by omega, hdec i hi⟩

/-- A data record is taken exactly when it is accepted. -/
theorem dataRecord_fault_eq_none {a : Word} {bytes : List Byte} :
    (dataRecord D a bytes).fault = none ↔ DataAccepted D a bytes := by
  rw [dataRecord_eq]
  split
  · rename_i hodd
    exact iff_of_false nofun fun h => absurd h.even (by omega)
  rename_i heven
  split
  · rename_i hconfig
    split
    · rename_i hlen
      exact ⟨fun _ => ⟨⟨by omega, fun _ => hlen, fun h => absurd hconfig h⟩,
        fun h => absurd hconfig h⟩, fun _ => rfl⟩
    · rename_i hlen
      exact iff_of_false nofun fun h => hlen (h.config hconfig)
  rename_i hcode
  split
  · rename_i hlen
    refine iff_of_false nofun fun h => ?_
    have := (h.code hcode).1
    omega
  · rename_i hlen
    rw [upToFault_fault_eq_none_iff, placements_ok_iff]
    constructor
    · rintro ⟨hmem, hdec⟩
      exact ⟨⟨by omega, fun h => absurd h hcode, fun _ => ⟨by omega, by omega⟩⟩, fun _ => hdec⟩
    · intro h
      have hmem := (h.code hcode).2
      exact ⟨by omega, h.decodes hcode⟩

/-- **A record is taken exactly when it is accepted**, if it is the last one. -/
theorem record_fault_eq_none {r : HexRecord} :
    (record D true r).fault = none ↔ RecordAccepted D r := by
  cases r with
  | data a bytes => exact dataRecord_fault_eq_none
  | endOfFile => simp [record, RecordAccepted, RecordFits]
  | extendedLinearAddress u => simp [record, RecordAccepted, RecordFits]
  | startSegmentAddress | extendedSegmentAddress | startLinearAddress =>
      simp [record, RecordAccepted, RecordFits]

/-! ### What it gives -/

theorem toOption_place {n : Nat} (h : n ≤ 0xFF) (w : Word) :
    (place D n w).toOption =
      (D w).toOption.map fun instruction => .statement ⟨BitVec.ofNat 8 n, instruction⟩ := by
  rw [place_of_le h]
  cases D w <;> rfl

/-- An accepted data record gives its words, decoded, at their addresses. -/
theorem yield_data {a : Word} {bytes : List Byte} (h : DataAccepted D a bytes) :
    (yield D (.data a bytes)).map some = output D (.data a bytes) := by
  have heven : ¬ a.toNat % 2 = 1 := by have := h.even; omega
  have hf := dataRecord_fault_eq_none.mpr h
  simp only [yield, record, output]
  rw [dataRecord_eq, if_neg heven] at hf ⊢
  by_cases hconfig : a = 0x1FFE#16
  · rw [if_pos hconfig, if_pos (h.config hconfig), if_pos hconfig]
    rfl
  · obtain ⟨hlen, hmem⟩ := h.code hconfig
    have hodd : ¬ bytes.length % 2 = 1 := by omega
    rw [if_neg hconfig, if_neg hodd] at hf ⊢
    rw [if_neg hconfig]
    -- Without a fault the records are the placements, and each of these is in memory.
    have hmap := congrArg (List.map Except.toOption) (upToFault_fault_eq_none.mp hf)
    rw [List.map_map, placements, List.map_map] at hmap
    refine hmap.trans (List.map_congr_left fun i hi => ?_)
    have hi := List.mem_range.mp hi
    exact toOption_place (by omega) _

/-- An accepted record gives its output. -/
theorem yield_eq_output {r : HexRecord} (h : RecordAccepted D r) :
    (yield D r).map some = output D r := by
  cases r with
  | data a bytes => exact yield_data h
  | endOfFile | extendedLinearAddress => rfl
  | startSegmentAddress | extendedSegmentAddress | startLinearAddress => exact h.elim

/-! ### The whole image -/

/-- An image that can be taken: an end-of-file record stands at most once and last, and each
record is accepted. -/
structure Acceptable (D : Decoder) (rs : List HexRecord) : Prop where
  endOfFile_once : rs.count .endOfFile ≤ 1
  endOfFile_last : ∀ i, rs[i]? = some .endOfFile → i + 1 = rs.length
  accepted : ∀ r ∈ rs, RecordAccepted D r

/-- An end of file that only comes last, by count and position. -/
theorem endOfFile_notMem_dropLast {rs : List HexRecord} :
    .endOfFile ∉ rs.dropLast ↔
      rs.count .endOfFile ≤ 1 ∧ ∀ i, rs[i]? = some .endOfFile → i + 1 = rs.length := by
  rcases List.eq_nil_or_concat rs with rfl | ⟨init, r, rfl⟩
  · simp
  · rw [List.concat_eq_append, List.dropLast_concat]
    constructor
    · intro h
      refine ⟨?_, fun i hi => ?_⟩
      · rw [List.count_append, List.count_eq_zero.mpr h, Nat.zero_add]
        exact List.count_le_length
      · have hi' : ¬ i < init.length := fun hlt => by
          rw [List.getElem?_append_left hlt] at hi
          exact h (List.mem_of_getElem? hi)
        have := (List.getElem?_eq_some_iff.mp hi).1
        simp only [List.length_append, List.length_singleton] at this ⊢
        omega
    · rintro ⟨-, hlast⟩ hmem
      obtain ⟨i, hi, hget⟩ := List.getElem_of_mem hmem
      have := hlast i (by rw [List.getElem?_append_left hi, List.getElem?_eq_getElem hi, hget])
      simp only [List.length_append, List.length_singleton] at this
      omega

end PicBaseline.Assembly

namespace PicBaseline

open Assembly

/-- **Exact acceptance**, for every decoder: an image gives a program if and only if it is
acceptable, and then the program is what its records give, in their order. -/
theorem assembleWith_ok_iff_acceptable (D : Decoder) (rs : List HexRecord) :
    ((∃ p, assembleWith D rs = .ok p) ↔ Acceptable D rs) ∧
      ∀ p, assembleWith D rs = .ok p → p.records.map some = rs.flatMap (output D) := by
  refine ⟨⟨?_, ?_⟩, fun p hp => ?_⟩
  · rintro ⟨p, hp⟩
    obtain ⟨heof, htaken, -⟩ := assembleWith_eq_ok.mp hp
    obtain ⟨honce, hlast⟩ := endOfFile_notMem_dropLast.mp heof
    exact ⟨honce, hlast, fun r hr => record_fault_eq_none.mp (htaken r hr)⟩
  · rintro ⟨honce, hlast, hacc⟩
    exact ⟨⟨rs.flatMap (yield D)⟩, assembleWith_eq_ok.mpr
      ⟨endOfFile_notMem_dropLast.mpr ⟨honce, hlast⟩,
        fun r hr => record_fault_eq_none.mpr (hacc r hr), rfl⟩⟩
  · obtain ⟨-, htaken, hrec⟩ := assembleWith_eq_ok.mp hp
    rw [hrec, List.map_flatMap]
    exact List.flatMap_congr fun r hr =>
      yield_eq_output (record_fault_eq_none.mp (htaken r hr))

/-- The last word of memory, and a record far outside it that holds no word. -/
theorem assembleWith_ok_iff_acceptable_last_word :
    let i : Instruction := ⟨⟨"nop", ⟨0#16, 0xFFF#16, .noOperands⟩, 1, .empty⟩, .noOperands⟩
    let rs : List HexRecord :=
      [.data 0x1FE#16 [0#8, 0#8], .data 0x8000#16 [], .data 0x1FFE#16 [0xEB#8, 0xFF#8], .endOfFile]
    Acceptable (fun _ => .ok i) rs ∧
      [some (.statement ⟨0xFF#8, i⟩), some (.config 0xFFEB#16)] =
        rs.flatMap (output fun _ => .ok i) := by
  intro i rs
  have h : assembleWith (fun _ => .ok i) rs =
      .ok ⟨[.statement ⟨0xFF#8, i⟩, .config 0xFFEB#16]⟩ := rfl
  obtain ⟨hiff, hout⟩ := assembleWith_ok_iff_acceptable (fun _ => .ok i) rs
  exact ⟨hiff.mp ⟨_, h⟩, hout _ h⟩

end PicBaseline
