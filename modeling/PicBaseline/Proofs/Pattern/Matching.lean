import PicBaseline.Proofs.Pattern.Overlap
import PicBaseline.Proofs.Pattern.Text
import Mathlib.Data.List.Intervals

/-!
# Proofs — words of a pattern

A compiled pattern accepts a word by its mask and opcode.  Written as digits, that compares the
word's first digits with those of the text; taken as numbers, the accepted words are those from the
opcode on, one for each setting of the operand bits.

* `take_digits_inj`: the first digits of two words are equal when their upper bits are.
* `digits_of_spelling`: the digits of the text are those that the pattern was compiled from.
* `Regular.accepts_ofNat_iff`: the accepted numbers lie between the opcode and the next one.
* `Regular.accepted_codes`: hence the accepted words in ascending order.
-/

namespace PicBaseline

/-- The first digits are those of the upper bits. -/
theorem Word.take_digits_inj {w v : Word} {n : Nat} (hn : n ≤ 12) :
    (digits w).take n = (digits v).take n ↔
      ∀ i, 12 - n ≤ i → i < 12 → w.getLsbD i = v.getLsbD i := by
  have hdigit : ∀ a b : Bool, (if a then '1' else '0') = (if b then '1' else '0') ↔ a = b := by
    decide
  rw [digits, digits, ← List.map_take, ← List.map_take, List.take_range, Nat.min_eq_left hn,
    List.map_inj_left]
  simp only [List.mem_range, hdigit]
  constructor
  · intro h i hlo hhi
    have hbit := h (11 - i) (by omega)
    rwa [Nat.sub_sub_self (by omega)] at hbit
  · intro h i hi
    exact h (11 - i) (by omega) (by omega)

namespace Pattern

open Text (solid)

variable {s : String} {p : Pattern}

/-! ### Digits of the text -/

/-- The digits of a spelling are the digits of the text, as layouts have none. -/
theorem digits_of_spelling {d : List Char} {shape : Shape}
    (h : Spelling (solid s.toList) d shape) : s.toList.filter (· ∈ opcodeDigits) = d := by
  have hsolid : (solid s.toList).filter (· ∈ opcodeDigits) =
      s.toList.filter (· ∈ opcodeDigits) := by
    rw [solid, List.filter_filter]
    refine List.filter_congr fun c _ => ?_
    by_cases hc : c ∈ opcodeDigits
    · simp [hc, isBlank_of_isOpcodeDigit (mem_opcodeDigits.mp hc)]
    · simp [hc]
  have hdigits : d.filter (· ∈ opcodeDigits) = d :=
    List.filter_eq_self.mpr fun c hc =>
      decide_eq_true (mem_opcodeDigits.mpr (h.isOpcodeDigit c hc))
  have hletters : shape.layout.toList.filter (· ∈ opcodeDigits) = [] := by
    refine List.filter_eq_nil_iff.mpr fun c hc => ?_
    have hletter := isLayoutLetter_of_mem_layout shape c hc
    simp [mem_opcodeDigits, isOpcodeDigit_of_isLayoutLetter hletter]
  rw [← hsolid, h.text_eq, List.filter_append, hdigits, hletters, List.append_nil]

/-- A word is accepted when it begins with the digits of the text. -/
theorem accepts_iff_digits (h : compile s = .ok p) {d : List Char}
    (hd : Spelling (solid s.toList) d p.shape) {w : Word} :
    p.accepts w ↔ (Word.digits w).take d.length = d := by
  have hlen := hd.length_eq
  have hwidth : 12 - d.length = p.shape.width := by omega
  calc p.accepts w
      ↔ ∀ i, 12 - d.length ≤ i → i < 12 → w.getLsbD i = p.opcode.getLsbD i := by
        rw [hwidth]
        exact (regular_of_compile h).accepts_iff_bits
    _ ↔ (Word.digits w).take d.length = (Word.digits p.opcode).take d.length :=
        (Word.take_digits_inj (by omega)).symm
    _ ↔ (Word.digits w).take d.length = d := by
        rw [take_digits_of_compile h hd]

/-! ### Opcodes as numbers -/

theorem mask_and_operandMask (p : Pattern) : p.mask &&& p.operandMask = 0#16 := by
  refine BitVec.eq_of_getLsbD_eq fun i _ => ?_
  rw [operandMask, BitVec.getLsbD_and, BitVec.getLsbD_and, BitVec.getLsbD_not]
  cases p.mask.getLsbD i <;> simp

namespace Regular

theorem opcode_and_mask (hp : p.Regular) : p.opcode &&& ~~~p.mask = 0#16 := by
  refine BitVec.eq_of_getLsbD_eq fun i hi => ?_
  have hbit := hp.opcode_bits i
  rw [BitVec.getLsbD_and, BitVec.getLsbD_not, hp.mask_bits, BitVec.getLsbD_zero]
  grind

/-- Every bit of a word belongs to the opcode or to the operands. -/
theorem mask_or_operandMask (hp : p.Regular) : p.mask ||| p.operandMask = wordMask := by
  refine BitVec.eq_of_getLsbD_eq fun i hi => ?_
  rw [operandMask, BitVec.getLsbD_or, BitVec.getLsbD_and, BitVec.getLsbD_not, hp.mask_bits,
    getLsbD_wordMask]
  grind

theorem toNat_operandMask (hp : p.Regular) : p.operandMask.toNat = 2 ^ p.shape.width - 1 := by
  have hpow : 2 ^ p.shape.width < 2 ^ 16 :=
    Nat.pow_lt_pow_right (by decide) (Nat.lt_trans p.shape.width_lt (by decide))
  rw [hp.operandMask_eq, Shape.mask, BitVec.toNat_ofNat, Nat.mod_eq_of_lt (by omega)]

/-- The operand bits of an opcode are clear. -/
theorem two_pow_dvd_opcode (hp : p.Regular) : 2 ^ p.shape.width ∣ p.opcode.toNat := by
  refine Nat.dvd_of_mod_eq_zero (Nat.eq_of_testBit_eq fun i => ?_)
  have hbit := hp.opcode_bits i
  rw [Nat.testBit_mod_two_pow, BitVec.testBit_toNat, Nat.zero_testBit]
  grind

/-- There is room for the operand bits above every opcode. -/
theorem opcode_add_le (hp : p.Regular) : p.opcode.toNat + 2 ^ p.shape.width ≤ 4096 := by
  have hwidth : p.shape.width < 12 := p.shape.width_lt
  have hsplit : 4096 = 2 ^ p.shape.width * 2 ^ (12 - p.shape.width) := by
    rw [← Nat.pow_add, Nat.add_sub_cancel' (Nat.le_of_lt hwidth)]
  have hlt : p.opcode.toNat < 4096 := hp.toNat_opcode_lt
  obtain ⟨c, hc⟩ := hp.two_pow_dvd_opcode
  rw [hc] at hlt ⊢
  rw [hsplit] at hlt ⊢
  calc 2 ^ p.shape.width * c + 2 ^ p.shape.width
      = 2 ^ p.shape.width * (c + 1) := (Nat.mul_succ _ _).symm
    _ ≤ 2 ^ p.shape.width * 2 ^ (12 - p.shape.width) :=
        Nat.mul_le_mul_left _ (Nat.lt_of_mul_lt_mul_left hlt)

/-- **The accepted numbers** lie between the opcode and the next one. -/
theorem accepts_ofNat_iff (hp : p.Regular) {n : Nat} (hn : n < 4096) :
    p.accepts (BitVec.ofNat 16 n) ↔
      p.opcode.toNat ≤ n ∧ n < p.opcode.toNat + 2 ^ p.shape.width := by
  have hpos : 0 < 2 ^ p.shape.width := Nat.two_pow_pos _
  obtain ⟨c, hc⟩ := hp.two_pow_dvd_opcode
  rw [hp.accepts_iff, BitVec.toNat_ofNat, Nat.mod_eq_of_lt (by omega : n < 2 ^ 16),
    Nat.mod_eq_of_lt hn, hc, Nat.mul_div_cancel_left c hpos, Nat.div_eq_iff hpos]
  rw [Nat.mul_comm c]
  omega

/-- **The accepted words** in ascending order: the opcode with each setting of the operand bits. -/
theorem accepted_codes (hp : p.Regular) :
    (List.range 4096).filter (fun n => p.accepts (BitVec.ofNat 16 n)) =
      (List.range (2 ^ p.shape.width)).map (p.opcode.toNat + ·) :=
  calc (List.range 4096).filter (fun n => p.accepts (BitVec.ofNat 16 n))
      = (List.range 4096).filter fun n =>
          decide (p.opcode.toNat ≤ n) && decide (n < p.opcode.toNat + 2 ^ p.shape.width) := by
        refine List.filter_congr fun n hn => ?_
        rw [Bool.eq_iff_iff, hp.accepts_ofNat_iff (List.mem_range.mp hn)]
        simp
    _ = ((List.Ico 0 4096).filter (· < p.opcode.toNat + 2 ^ p.shape.width)).filter
          (p.opcode.toNat ≤ ·) := by
        rw [List.Ico.zero_bot, List.filter_filter]
    _ = List.Ico p.opcode.toNat (p.opcode.toNat + 2 ^ p.shape.width) := by
        rw [List.Ico.filter_lt_of_ge hp.opcode_add_le, List.Ico.filter_le_of_le (Nat.zero_le _)]
    _ = (List.range (2 ^ p.shape.width)).map (p.opcode.toNat + ·) := by
        rw [List.Ico, Nat.add_sub_cancel_left, List.range'_eq_map_range]

end Regular

end Pattern

/-! ### What a pattern says -/

open Pattern

/-- **Matching means what the pattern says.**  A compiled pattern accepts a word if and only if the
word's low twelve bits, most significant first, begin with the digits of the text.  The opcode keeps
to the mask; mask and operand mask share out the twelve bits, the operand mask taking the low ones;
and the accepted words are the opcode plus each number of that many bits. -/
theorem compile_accepts {s : String} {p : Pattern} (h : compile s = .ok p) :
    (∀ w : Word, p.accepts w ↔
      (Word.digits w).take (s.toList.filter (· ∈ opcodeDigits)).length =
        s.toList.filter (· ∈ opcodeDigits)) ∧
    p.opcode &&& ~~~p.mask = 0#16 ∧
    (p.mask ||| p.operandMask = 0xFFF#16 ∧ p.mask &&& p.operandMask = 0#16) ∧
    p.operandMask.toNat = 2 ^ p.shape.width - 1 ∧
    ((List.range 4096).filter fun n => p.accepts (BitVec.ofNat 16 n)).length =
      2 ^ p.shape.width ∧
    (List.range 4096).filter (fun n => p.accepts (BitVec.ofNat 16 n)) =
      (List.range (2 ^ p.shape.width)).map (p.opcode.toNat + ·) := by
  have hp := regular_of_compile h
  obtain ⟨d, hd⟩ := spelling_of_compile h
  refine ⟨fun w => ?_, hp.opcode_and_mask, ⟨hp.mask_or_operandMask, mask_and_operandMask p⟩,
    hp.toNat_operandMask, ?_, hp.accepted_codes⟩
  · rw [digits_of_spelling hd]
    exact accepts_iff_digits h hd
  · rw [hp.accepted_codes, List.length_map, List.length_range]

/-- Of a word with its upper four bits set, the three digits are the first of the low twelve. -/
theorem compile_accepts_goto :
    compile "101k kkkk kkkk" = .ok ⟨0xA00#16, 0xE00#16, .goto⟩ ∧
    (Pattern.mk 0xA00#16 0xE00#16 .goto).accepts 0xFABC#16 ∧
    ¬ (Pattern.mk 0xA00#16 0xE00#16 .goto).accepts 0xA8BC#16 ∧
    ((List.range 4096).filter fun n =>
      (Pattern.mk 0xA00#16 0xE00#16 .goto).accepts (BitVec.ofNat 16 n)).length = 2 ^ 9 := by
  have h : compile "101k kkkk kkkk" = .ok ⟨0xA00#16, 0xE00#16, .goto⟩ := rfl
  obtain ⟨hdigits, -, -, -, hcount, -⟩ := compile_accepts h
  exact ⟨h, (hdigits _).mpr (by decide), mt (hdigits _).mp (by decide), hcount⟩

end PicBaseline
