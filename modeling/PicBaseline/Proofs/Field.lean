import PicBaseline.Word
import Mathlib.Algebra.Group.Nat.Defs

/-!
# Proofs — fields of a word, bit by bit

What `mask`, `extract` and `insert` do to each bit, and what follows for a field read after a
write.

* `extract_eq_iff`: reading a field sees its bits, and no bit outside it.
* `toNat_extract_insert`: a field read after a write holds the value written, cut to its width.
* `extract_insert_of_disjoint`: a write to one field leaves a field beside it alone.
* `insert_and_extract`: copying a field from `w` onto some bits of `w` adds the field's bits.
-/

namespace PicBaseline

@[simp] theorem getLsbD_wordMask (i : Nat) : wordMask.getLsbD i = decide (i < wordBits) := by
  show (BitVec.ofNat 16 (2 ^ 12 - 1)).getLsbD i = decide (i < 12)
  rw [BitVec.getLsbD_ofNat, Nat.testBit_two_pow_sub_one]
  grind

/-- The low twelve bits as a number. -/
theorem toNat_and_wordMask (w : Word) : (w &&& wordMask).toNat = w.toNat % 4096 := by
  rw [BitVec.toNat_and]
  exact Nat.and_two_pow_sub_one_eq_mod w.toNat 12

namespace Field

variable (f : Field) (w v : Word)

/-! ### Single bits -/

@[simp] theorem getLsbD_mask (i : Nat) : f.mask.getLsbD i = decide (f.lo ≤ i ∧ i < f.hi) := by
  have lo := f.lo_lt_hi
  have hi := f.hi_le
  simp only [mask, BitVec.getLsbD_and, BitVec.getLsbD_shiftLeft, BitVec.getLsbD_ushiftRight,
    BitVec.getLsbD_allOnes]
  grind

/-- The bits of the field, moved down to position zero. -/
theorem getLsbD_extract (i : Nat) :
    (f.extract w).getLsbD i = (decide (i < f.hi - f.lo) && w.getLsbD (f.lo + i)) := by
  simp only [extract, BitVec.getLsbD_ushiftRight, BitVec.getLsbD_and, getLsbD_mask]
  grind

/-- Inside the field the bits of the value, outside those of the word. -/
theorem getLsbD_insert (i : Nat) :
    (f.insert w v).getLsbD i =
      if f.lo ≤ i ∧ i < f.hi then v.getLsbD (i - f.lo) else w.getLsbD i := by
  have hi := f.hi_le
  simp only [insert, BitVec.getLsbD_or, BitVec.getLsbD_and, BitVec.getLsbD_not,
    BitVec.getLsbD_shiftLeft, getLsbD_mask]
  by_cases h : f.lo ≤ i ∧ i < f.hi
  · have h16 : i < 16 := by omega
    simp [h, h16, Nat.not_lt.mpr h.1]
  · by_cases h16 : i < 16
    · simp [h, h16]
    · simp [h, h16, BitVec.getLsbD_of_ge w i (by omega)]

/-! ### Reading -/

/-- The number that the field spells. -/
theorem toNat_extract : (f.extract w).toNat = w.toNat / 2 ^ f.lo % 2 ^ (f.hi - f.lo) := by
  refine Nat.eq_of_testBit_eq fun i => ?_
  rw [Nat.testBit_mod_two_pow, Nat.testBit_div_two_pow, BitVec.testBit_toNat, BitVec.testBit_toNat,
    getLsbD_extract, Nat.add_comm]

theorem toNat_extract_lt : (f.extract w).toNat < 2 ^ (f.hi - f.lo) := by
  refine Nat.lt_pow_two_of_testBit _ fun i hi => ?_
  rw [BitVec.testBit_toNat, getLsbD_extract]
  simp [Nat.not_lt.mpr hi]

/-- Two words read alike in a field exactly if they have the same bits at its positions. -/
theorem extract_eq_iff {f : Field} {w w' : Word} :
    f.extract w = f.extract w' ↔ ∀ i, f.lo ≤ i → i < f.hi → w.getLsbD i = w'.getLsbD i := by
  constructor
  · intro h i hlo hhi
    have hbit := congrArg (BitVec.getLsbD · (i - f.lo)) h
    have hin : i - f.lo < f.hi - f.lo := by omega
    simpa [getLsbD_extract, hin, Nat.add_sub_cancel' hlo] using hbit
  · intro h
    refine BitVec.eq_of_getLsbD_eq fun i _ => ?_
    rw [getLsbD_extract, getLsbD_extract]
    by_cases hi : i < f.hi - f.lo
    · rw [h (f.lo + i) (by omega) (by omega)]
    · simp [hi]

/-- Bits outside the field may be cleared. -/
theorem extract_and {f : Field} {m : Word} (h : ∀ i, f.lo ≤ i → i < f.hi → m.getLsbD i)
    (w : Word) : f.extract (w &&& m) = f.extract w := by
  refine extract_eq_iff.mpr fun i hlo hhi => ?_
  rw [BitVec.getLsbD_and, h i hlo hhi, Bool.and_true]

/-! ### Writing, then reading -/

/-- The field reads as the value written, cut to the width of the field. -/
theorem toNat_extract_insert :
    (f.extract (f.insert w v)).toNat = v.toNat % 2 ^ (f.hi - f.lo) := by
  refine Nat.eq_of_testBit_eq fun i => ?_
  rw [Nat.testBit_mod_two_pow, BitVec.testBit_toNat, BitVec.testBit_toNat, getLsbD_extract,
    getLsbD_insert]
  by_cases hi : i < f.hi - f.lo
  · have hin : f.lo ≤ f.lo + i ∧ f.lo + i < f.hi := by omega
    simp [hi, hin]
  · simp [hi]

/-- A number that fits is read back. -/
theorem toNat_extract_insert_ofNat {n : Nat} (h : n < 2 ^ (f.hi - f.lo)) :
    (f.extract (f.insert w (BitVec.ofNat 16 n))).toNat = n := by
  have h16 : 2 ^ (f.hi - f.lo) ≤ 2 ^ 16 :=
    Nat.pow_le_pow_right (by decide) (by have := f.hi_le; omega)
  rw [toNat_extract_insert, BitVec.toNat_ofNat, Nat.mod_eq_of_lt (Nat.lt_of_lt_of_le h h16),
    Nat.mod_eq_of_lt h]

/-- Writing a field leaves every other field alone. -/
theorem extract_insert_of_disjoint {f g : Field} (h : f.hi ≤ g.lo ∨ g.hi ≤ f.lo) (w v : Word) :
    f.extract (g.insert w v) = f.extract w := by
  refine extract_eq_iff.mpr fun i hlo hhi => ?_
  have hout : ¬ (g.lo ≤ i ∧ i < g.hi) := by omega
  rw [getLsbD_insert, if_neg hout]

/-! ### Reading, then writing -/

/-- The bits `m` of `w`, with a field of `w` written over them. -/
theorem insert_and_extract (m : Word) :
    f.insert (w &&& m) (f.extract w) = w &&& (m ||| f.mask) := by
  refine BitVec.eq_of_getLsbD_eq fun i _ => ?_
  rw [getLsbD_insert, getLsbD_extract, BitVec.getLsbD_and, BitVec.getLsbD_and,
    BitVec.getLsbD_or, getLsbD_mask]
  by_cases h : f.lo ≤ i ∧ i < f.hi
  · have hi : i - f.lo < f.hi - f.lo := by omega
    simp [h, hi]
  · simp [h]

/-- A field put into a clear word is the word under the field's mask. -/
theorem insert_zero_extract : f.insert 0#16 (f.extract w) = w &&& f.mask := by
  simpa using insert_and_extract f w 0#16

end Field

end PicBaseline
