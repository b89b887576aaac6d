import Mathlib.Data.List.Induction
import PicBaseline.Pattern
import PicBaseline.Proofs.Operand.Codec

/-!
# Proofs — compiled patterns

`compile` fixes the opcode bits above the operand bits of its shape: `Regular p` says so bit by
bit, of the mask and of the opcode, and `regular_of_compile` that every compiled pattern is so.
Facts about what a pattern accepts follow from `Regular` alone, whatever text it came from.

A pattern describes its operand bits twice: its text by a layout, its mask by the bits the opcode
leaves free.  The codec of its shape describes them a third time, by fields.
`compile_fits_codec` says that the three agree, for every text that compiles and not only for the
patterns of the instruction set.
-/

namespace PicBaseline.Pattern

/-- The upper four bits of a word do not count. -/
theorem accepts_and_wordMask (p : Pattern) (w : Word) :
    p.accepts (w &&& wordMask) = p.accepts w := by
  simp only [accepts, BitVec.and_assoc, BitVec.and_self]

/-! ### Bits of the opcode and of the mask -/

theorem ofBits_concat (bits : List Bool) (b : Bool) :
    ofBits (bits ++ [b]) = (ofBits bits <<< 1) ||| (BitVec.ofBool b).setWidth 16 := by
  simp [ofBits]

/-- The bits of a word read from the left: the last one is the lowest. -/
theorem getLsbD_ofBits (bits : List Bool) (i : Nat) :
    (ofBits bits).getLsbD i = (decide (i < 16) && bits.reverse.getD i false) := by
  induction bits using List.reverseRecOn generalizing i with
  | nil => simp [ofBits]
  | append_singleton bits b ih =>
      rw [ofBits_concat, BitVec.getLsbD_or, BitVec.getLsbD_shiftLeft, List.reverse_append]
      cases i with
      | zero => simp
      | succ i =>
          simp [ih]
          grind

/-- `n` ones at the bottom of a word. -/
theorem getLsbD_ones {n : Nat} (hn : n < 16) (i : Nat) :
    ((1#16 <<< n) - 1#16).getLsbD i = decide (i < n) := by
  have hpow : 2 ^ n < 2 ^ 16 := Nat.pow_lt_pow_right (by decide) hn
  have hones : (1#16 <<< n) - 1#16 = BitVec.ofNat 16 (2 ^ n - 1) := by
    have hpos : 0 < 2 ^ n := Nat.two_pow_pos n
    refine BitVec.eq_of_toNat_eq ?_
    rw [← BitVec.twoPow_eq, BitVec.toNat_sub, BitVec.toNat_twoPow_of_lt hn]
    simp only [BitVec.toNat_ofNat]
    omega
  rw [hones, BitVec.getLsbD_ofNat, Nat.testBit_two_pow_sub_one]
  grind

/-! ### What compiles -/

/-- A text compiles to the bits in front of its layout, set above the bits of the layout. -/
theorem of_compile {s : String} {p : Pattern} (h : compile s = .ok p) :
    ∃ bits rest layout, scanOpcode s.toList = .ok (bits, rest) ∧ bits ≠ [] ∧
      scanLayout rest = .ok layout ∧ Shape.ofLayout? layout = some p.shape ∧
      bits.length + p.shape.width = wordBits ∧
      p.opcode = ofBits bits <<< p.shape.width ∧
      p.mask = ((1#16 <<< bits.length) - 1#16) <<< p.shape.width := by
  obtain ⟨⟨bits, rest⟩, hscan, h⟩ := bind_returns.mp h
  dsimp only at h
  split at h
  · cases h
  rename_i hne
  split at h
  · cases h
  rename_i hle
  obtain ⟨layout, hlayout, h⟩ := bind_returns.mp h
  split at h
  · rename_i shape hshape
    cases h
    obtain ⟨hof, hwidth⟩ := Option.filter_eq_some_iff.mp hshape
    have hwidth : shape.width = wordBits - bits.length := by simpa using hwidth
    refine ⟨bits, rest, layout, hscan, by simpa using hne, hlayout, hof, ?_, ?_, ?_⟩
    · show bits.length + shape.width = wordBits
      omega
    · rw [hwidth]
    · rw [hwidth]
  · cases h

/-- The opcode bits are those from the width of the operands up to the end of the word, and the
opcode has ones nowhere else. -/
structure Regular (p : Pattern) : Prop where
  mask_bits : ∀ i, p.mask.getLsbD i = decide (p.shape.width ≤ i ∧ i < wordBits)
  opcode_bits : ∀ i, p.opcode.getLsbD i → p.shape.width ≤ i ∧ i < wordBits

/-- **Every compiled pattern is regular.** -/
theorem regular_of_compile {s : String} {p : Pattern} (h : compile s = .ok p) : p.Regular := by
  obtain ⟨bits, -, -, -, hne, -, -, hlen, hop, hmask⟩ := of_compile h
  have hlt : bits.length < 16 := by
    have : wordBits = 12 := rfl
    omega
  refine ⟨fun i => ?_, fun i hi => ?_⟩
  · rw [hmask, BitVec.getLsbD_shiftLeft, getLsbD_ones hlt]
    have : wordBits = 12 := rfl
    grind
  · rw [hop, BitVec.getLsbD_shiftLeft, getLsbD_ofBits] at hi
    have hlast : i - p.shape.width < bits.length := by
      by_contra hge
      simp [List.getD_eq_getElem?_getD, List.getElem?_eq_none (l := bits.reverse)
        (by simpa using hge)] at hi
    grind

namespace Regular

variable {p : Pattern}

/-- The bits that the opcode leaves free are those of the shape. -/
theorem operandMask_eq (hp : p.Regular) : p.operandMask = p.shape.mask := by
  have hw := p.shape.width_lt
  refine BitVec.eq_of_getLsbD_eq fun i hi => ?_
  rw [operandMask, BitVec.getLsbD_and, BitVec.getLsbD_not, hp.mask_bits, getLsbD_wordMask,
    Shape.getLsbD_mask]
  grind

/-- A word is accepted when its bits above the operands are those of the opcode. -/
theorem accepts_iff_bits (hp : p.Regular) {w : Word} :
    p.accepts w ↔
      ∀ i, p.shape.width ≤ i → i < wordBits → w.getLsbD i = p.opcode.getLsbD i := by
  rw [accepts, beq_iff_eq]
  constructor
  · intro hop i hlo hhi
    simp [← hop, hp.mask_bits, hlo, hhi]
  · intro hbits
    refine BitVec.eq_of_getLsbD_eq fun i _ => ?_
    have hop := hp.opcode_bits i
    have hbit := hbits i
    simp only [BitVec.getLsbD_and, hp.mask_bits, getLsbD_wordMask]
    grind

/-- The same of the numbers: what stands above the operand bits is equal. -/
theorem accepts_iff (hp : p.Regular) {w : Word} :
    p.accepts w ↔
      w.toNat % 4096 / 2 ^ p.shape.width = p.opcode.toNat / 2 ^ p.shape.width := by
  have hbit : ∀ i, (w.toNat % 4096 / 2 ^ p.shape.width).testBit i =
      (decide (i + p.shape.width < wordBits) && w.getLsbD (i + p.shape.width)) := by
    intro i
    rw [Nat.testBit_div_two_pow, ← BitVec.testBit_toNat]
    exact Nat.testBit_mod_two_pow w.toNat 12 (i + p.shape.width)
  have hop : ∀ i, (p.opcode.toNat / 2 ^ p.shape.width).testBit i =
      p.opcode.getLsbD (i + p.shape.width) :=
    fun i => Nat.testBit_div_two_pow p.opcode.toNat i
  rw [hp.accepts_iff_bits]
  constructor
  · intro hbits
    refine Nat.eq_of_testBit_eq fun i => ?_
    have hin := hp.opcode_bits (i + p.shape.width)
    have hsame := hbits (i + p.shape.width)
    rw [hbit, hop]
    grind
  · intro hnum i hlo hhi
    have hsame := congrArg (Nat.testBit · (i - p.shape.width)) hnum
    simpa [hbit, hop, hlo, hhi] using hsame

/-- The operand bits of an accepted word, under the opcode, are the word. -/
theorem or_of_accepts (hp : p.Regular) {w : Word} (h : p.accepts w) :
    p.opcode ||| (w &&& p.shape.mask) = w &&& wordMask := by
  have hw := p.shape.width_lt
  have hop : w &&& wordMask &&& p.mask = p.opcode := by simpa [accepts] using h
  refine BitVec.eq_of_getLsbD_eq fun i hi => ?_
  simp only [← hop, BitVec.getLsbD_or, BitVec.getLsbD_and, hp.mask_bits, getLsbD_wordMask,
    Shape.getLsbD_mask]
  grind

/-- Operand bits under the opcode leave it to be accepted. -/
theorem accepts_or (hp : p.Regular) {v : Word} (hv : ∀ i, v.getLsbD i → i < p.shape.width) :
    p.accepts (p.opcode ||| v) := by
  have hop : (p.opcode ||| v) &&& wordMask &&& p.mask = p.opcode := by
    refine BitVec.eq_of_getLsbD_eq fun i hi => ?_
    have h₁ := hp.opcode_bits i
    have h₂ := hv i
    simp only [BitVec.getLsbD_or, BitVec.getLsbD_and, hp.mask_bits, getLsbD_wordMask]
    grind
  simpa [accepts] using hop

/-- The operand bits come back from under the opcode. -/
theorem or_and_mask (hp : p.Regular) {v : Word} (hv : ∀ i, v.getLsbD i → i < p.shape.width) :
    (p.opcode ||| v) &&& p.shape.mask = v := by
  refine BitVec.eq_of_getLsbD_eq fun i hi => ?_
  have h₁ := hp.opcode_bits i
  have h₂ := hv i
  simp only [BitVec.getLsbD_or, BitVec.getLsbD_and, Shape.getLsbD_mask]
  grind

end Regular

end PicBaseline.Pattern

namespace PicBaseline

open Pattern

/-- **Patterns and codecs fit.**  Of a word that a compiled pattern accepts, the codec of the
pattern's shape reads operand bits only, and the operands it reads stand under the opcode as the
low bits of that word.  Every operand of the shape keeps to the operand bits, its word is accepted,
and it is read back from the word's operand bits. -/
theorem compile_fits_codec {s : String} {p : Pattern} (h : compile s = .ok p) :
    (∀ w : Word, p.accepts w →
      Operand.decode p.shape w = Operand.decode p.shape (w &&& p.operandMask) ∧
      ∀ x, Operand.decode p.shape w = .ok x →
        x.shape = p.shape ∧ p.opcode ||| x.encode = w &&& wordMask) ∧
    ∀ x : Operand, x.shape = p.shape →
      x.encode &&& ~~~p.operandMask = 0#16 ∧
      p.accepts (p.opcode ||| x.encode) ∧
      Operand.decode p.shape ((p.opcode ||| x.encode) &&& p.operandMask) = .ok x := by
  have hp := regular_of_compile h
  rw [hp.operandMask_eq]
  refine ⟨fun w hw => ⟨?_, fun x hx => ?_⟩, fun x hx => ?_⟩
  · exact (Operand.decode_and (fun i hi => by simpa using hi) w).symm
  · obtain ⟨hshape, henc⟩ := Operand.encode_of_decode hx
    exact ⟨hshape, henc ▸ hp.or_of_accepts hw⟩
  · have hbits : ∀ i, x.encode.getLsbD i → i < p.shape.width :=
      fun i hi => hx ▸ Operand.getLsbD_encode hi
    refine ⟨?_, hp.accepts_or hbits, ?_⟩
    · refine BitVec.eq_of_getLsbD_eq fun i _ => ?_
      have := hbits i
      simp only [BitVec.getLsbD_and, BitVec.getLsbD_not, Shape.getLsbD_mask, BitVec.getLsbD_zero]
      grind
    · rw [hp.or_and_mask hbits, ← hx]
      exact Operand.decode_encode x

/-- A pattern that is not in the instruction set, at a word with its upper four bits set. -/
theorem compile_fits_codec_literal :
    compile "0\t101 kkkkkkkk" = .ok ⟨0x500#16, 0xF00#16, .literal⟩ ∧
    (Pattern.mk 0x500#16 0xF00#16 .literal).accepts 0xF5A7#16 ∧
    Operand.decode .literal 0xF5A7#16 = .ok (.literal 0xA7#8) ∧
    0x500#16 ||| (Operand.literal 0xA7#8).encode = 0xF5A7#16 &&& wordMask ∧
    (Pattern.mk 0x500#16 0xF00#16 .literal).accepts
      (0x500#16 ||| (Operand.literal 0xA7#8).encode) :=
  have h : compile "0\t101 kkkkkkkk" = .ok ⟨0x500#16, 0xF00#16, .literal⟩ := rfl
  have hw : (Pattern.mk 0x500#16 0xF00#16 .literal).accepts 0xF5A7#16 := by decide
  have hx : Operand.decode .literal 0xF5A7#16 = .ok (.literal 0xA7#8) := rfl
  ⟨h, hw, hx, (((compile_fits_codec h).1 _ hw).2 _ hx).2, ((compile_fits_codec h).2 _ rfl).2.1⟩

end PicBaseline
