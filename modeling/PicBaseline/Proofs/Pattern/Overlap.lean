import PicBaseline.Proofs.Pattern.Compile

/-!
# Proofs — words of two patterns

`overlaps` compares two opcodes at the bits that both patterns fix.  A compiled pattern fixes the
upper bits of a word, so of two patterns the one with fewer operand bits fixes all that the other
does: if the opcodes agree there, whatever it accepts the other accepts too.

* `overlaps_of_accepts`: patterns with a common word overlap.
* `Regular.accepts_of_overlaps`: the words of overlapping patterns are nested.
* `Regular.exists_of_overlaps`: the opcode of the narrower pattern is a common word.
-/

namespace PicBaseline

namespace Pattern

variable {p q : Pattern}

theorem overlaps_comm (p q : Pattern) : p.overlaps q = q.overlaps p := by
  rw [overlaps, overlaps, BitVec.and_comm q.mask, BEq.comm]

/-- Two patterns that accept a common word agree at the bits that both fix. -/
theorem overlaps_of_accepts {w : Word} (hp : p.accepts w) (hq : q.accepts w) : p.overlaps q := by
  have hp : w &&& wordMask &&& p.mask = p.opcode := by simpa [accepts] using hp
  have hq : w &&& wordMask &&& q.mask = q.opcode := by simpa [accepts] using hq
  have hsame : p.opcode &&& (p.mask &&& q.mask) = q.opcode &&& (p.mask &&& q.mask) := by
    refine BitVec.eq_of_getLsbD_eq fun i _ => ?_
    simp only [← hp, ← hq, BitVec.getLsbD_and]
    cases p.mask.getLsbD i <;> cases q.mask.getLsbD i <;> simp
  simpa [overlaps] using hsame

namespace Regular

theorem opcode_bits_of_overlaps (hp : p.Regular) (hq : q.Regular) (h : p.overlaps q) {i : Nat}
    (hpi : p.shape.width ≤ i) (hqi : q.shape.width ≤ i) (hi : i < wordBits) :
    p.opcode.getLsbD i = q.opcode.getLsbD i := by
  rw [overlaps, beq_iff_eq] at h
  have hbit := congrArg (BitVec.getLsbD · i) h
  simpa [hp.mask_bits, hq.mask_bits, hpi, hqi, hi] using hbit

/-- **The wider pattern accepts what the narrower does**, if the two overlap. -/
theorem accepts_of_overlaps (hp : p.Regular) (hq : q.Regular) (h : p.overlaps q)
    (hwidth : p.shape.width ≤ q.shape.width) {w : Word} (hw : p.accepts w) : q.accepts w := by
  refine hq.accepts_iff_bits.mpr fun i hqi hi => ?_
  have hpi : p.shape.width ≤ i := Nat.le_trans hwidth hqi
  calc w.getLsbD i
      = p.opcode.getLsbD i := hp.accepts_iff_bits.mp hw i hpi hi
    _ = q.opcode.getLsbD i := hp.opcode_bits_of_overlaps hq h hpi hqi hi

/-- A pattern accepts its opcode with clear operand bits. -/
theorem accepts_opcode (hp : p.Regular) : p.accepts p.opcode :=
  hp.accepts_iff_bits.mpr fun _ _ _ => rfl

theorem toNat_opcode_lt (hp : p.Regular) : p.opcode.toNat < 2 ^ wordBits := by
  refine Nat.lt_pow_two_of_testBit _ fun i hi => ?_
  rw [BitVec.testBit_toNat, Bool.eq_false_iff]
  intro hbit
  exact absurd (hp.opcode_bits i hbit).2 (Nat.not_lt.mpr hi)

/-- **Overlapping patterns have a common word**: the opcode of the narrower one. -/
theorem exists_of_overlaps (hp : p.Regular) (hq : q.Regular) (h : p.overlaps q) :
    ∃ w : Word, w.toNat < 2 ^ wordBits ∧ p.accepts w ∧ q.accepts w := by
  rcases Nat.le_total p.shape.width q.shape.width with hwidth | hwidth
  · exact ⟨p.opcode, hp.toNat_opcode_lt, hp.accepts_opcode,
      hp.accepts_of_overlaps hq h hwidth hp.accepts_opcode⟩
  · rw [overlaps_comm] at h
    exact ⟨q.opcode, hq.toNat_opcode_lt, hq.accepts_of_overlaps hp h hwidth hq.accepts_opcode,
      hq.accepts_opcode⟩

end Regular

end Pattern

/-! ### Compiled patterns -/

open Pattern

/-- **Overlap is exact.**  Compiled patterns overlap, in either order, if and only if some word of
twelve bits is accepted by both; the pattern with more operand bits then accepts every word that the
other does.  So the words of two compiled patterns are disjoint or nested. -/
theorem overlaps_iff_common_word {s t : String} {p q : Pattern} (hs : compile s = .ok p)
    (ht : compile t = .ok q) :
    p.overlaps q = q.overlaps p ∧
    (p.overlaps q ↔ ∃ w : Word, w.toNat < 2 ^ 12 ∧ p.accepts w ∧ q.accepts w) ∧
    (p.overlaps q →
      (p.shape.width ≤ q.shape.width → ∀ w : Word, p.accepts w → q.accepts w) ∧
      (q.shape.width ≤ p.shape.width → ∀ w : Word, q.accepts w → p.accepts w)) ∧
    ((∀ w : Word, ¬ (p.accepts w ∧ q.accepts w)) ∨ (∀ w : Word, p.accepts w → q.accepts w) ∨
      ∀ w : Word, q.accepts w → p.accepts w) := by
  have hp := regular_of_compile hs
  have hq := regular_of_compile ht
  refine ⟨overlaps_comm p q, ⟨hp.exists_of_overlaps hq, ?_⟩, fun h => ⟨fun hwidth _ => ?_,
    fun hwidth _ => ?_⟩, ?_⟩
  · rintro ⟨w, -, hpw, hqw⟩
    exact overlaps_of_accepts hpw hqw
  · exact hp.accepts_of_overlaps hq h hwidth
  · exact hq.accepts_of_overlaps hp (overlaps_comm p q ▸ h) hwidth
  · by_cases h : p.overlaps q
    · rcases Nat.le_total p.shape.width q.shape.width with hwidth | hwidth
      · exact Or.inr (Or.inl fun _ => hp.accepts_of_overlaps hq h hwidth)
      · exact Or.inr (Or.inr fun _ => hq.accepts_of_overlaps hp (overlaps_comm p q ▸ h) hwidth)
    · exact Or.inl fun w hw => h (overlaps_of_accepts hw.1 hw.2)

/-- A pattern without operands inside the pattern of three operand bits, and one outside it. -/
theorem overlaps_iff_common_word_tris :
    let tris : Pattern := ⟨0x000#16, 0xFF8#16, .tris⟩
    let inside : Pattern := ⟨0x005#16, 0xFFF#16, .noOperands⟩
    let outside : Pattern := ⟨0x040#16, 0xFFF#16, .noOperands⟩
    compile "0000 0000 0fff" = .ok tris ∧ compile "0000 0000 0101" = .ok inside ∧
    compile "0000 0100 0000" = .ok outside ∧
    (∀ w : Word, inside.accepts w → tris.accepts w) ∧
    ¬ ∃ w : Word, w.toNat < 2 ^ 12 ∧ tris.accepts w ∧ outside.accepts w := by
  intro tris inside outside
  have htris : compile "0000 0000 0fff" = .ok tris := rfl
  have hinside : compile "0000 0000 0101" = .ok inside := rfl
  have houtside : compile "0000 0100 0000" = .ok outside := rfl
  obtain ⟨-, -, hnested, -⟩ := overlaps_iff_common_word hinside htris
  obtain ⟨-, hiff, -, -⟩ := overlaps_iff_common_word htris houtside
  exact ⟨htris, hinside, houtside, (hnested (by decide)).1 (by decide), mt hiff.mpr (by decide)⟩

end PicBaseline
