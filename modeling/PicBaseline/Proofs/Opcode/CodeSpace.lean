import PicBaseline.Proofs.Instruction
import PicBaseline.Proofs.Opcode.Order

/-!
# Proofs — the code space

The 4096 words of twelve bits, by their number.  Operands stand in the low bits of a word, so the
entries of one shape take whole blocks of words; `Shape.codes` numbers these blocks and
`Shape.Region` says where they lie.

* `exists_entry_iff`: a word has an entry of a shape exactly when it lies in the shape's region.
* `matching_eq_none`: the regions leave two gaps.
* `region_of_matching`: the region of the entry that is found.  A word that `tris` is found for is
  not the word of an opcode without operands.
* `Operand.decode_eq_error`: the operand bits that mean nothing, by shape.
* `Instruction.decode_eq_error`: together, the words that are no instructions, each with its error.
-/

namespace PicBaseline

/-! ### Regions -/

namespace Shape

theorem mem_all (s : Shape) : s ∈ all := by
  cases s <;> decide

/-- The opcodes of a shape, as the numbers that stand above its operand bits. -/
def codes : Shape → List Nat
  | noOperands         => [0x000, 0x002, 0x003, 0x004, 0x040]
  | file               => [0x1, 0x3]
  | fileAndDestination => List.range' 0x2 14
  | fileAndBit         => List.range' 0x4 4
  | literal            => List.range' 0x8 2 ++ List.range' 0xC 4
  | goto               => [0x5]
  | tris               => [0x0]

/-- The words of a shape's opcodes. -/
def Region : Shape → Nat → Prop
  | noOperands, n         => n = 0x000 ∨ (0x002 ≤ n ∧ n ≤ 0x004) ∨ n = 0x040
  | file, n               => (0x020 ≤ n ∧ n ≤ 0x03F) ∨ (0x060 ≤ n ∧ n ≤ 0x07F)
  | fileAndDestination, n => 0x080 ≤ n ∧ n ≤ 0x3FF
  | fileAndBit, n         => 0x400 ≤ n ∧ n ≤ 0x7FF
  | literal, n            => (0x800 ≤ n ∧ n ≤ 0x9FF) ∨ (0xC00 ≤ n ∧ n ≤ 0xFFF)
  | goto, n               => 0xA00 ≤ n ∧ n ≤ 0xBFF
  | tris, n               => n ≤ 0x007

/-- A number is in the region of a shape if what stands above the operand bits is one of its codes.
-/
theorem mem_codes_iff {s : Shape} {n : Nat} (hn : n < 4096) :
    n / 2 ^ s.width ∈ s.codes ↔ s.Region n := by
  -- The width is a number, but only after the layout is counted.
  have hwidth : s.width = match s with
      | noOperands => 0 | file => 5 | fileAndDestination => 6 | fileAndBit => 8
      | literal => 8 | goto => 9 | tris => 3 := by
    cases s <;> rfl
  rw [hwidth]
  cases s <;> simp only [codes, Region, List.mem_cons, List.mem_append, List.mem_range'_1,
    List.not_mem_nil, or_false] <;> omega

end Shape

/-! ### What is found -/

namespace Opcode

variable {w : Word} {op : Opcode}

/-- **The codes of a shape are those of its entries**, each once. -/
theorem perm_codes : ∀ s ∈ Shape.all,
    ((table.filter fun op => op.pattern.shape = s).map fun op =>
      op.pattern.opcode.toNat / 2 ^ s.width).Perm s.codes := by
  decide +kernel

theorem shape_of_tris : ∀ op ∈ table, op.name = "tris" → op.pattern.shape = .tris := by
  decide +kernel

/-- **A word has an entry of a shape** when it lies in the region of the shape. -/
theorem exists_entry_iff {s : Shape} :
    (∃ op ∈ table, op.pattern.shape = s ∧ op.pattern.accepts w) ↔ s.Region (w.toNat % 4096) := by
  rw [← Shape.mem_codes_iff (Nat.mod_lt _ (by decide)), ← (perm_codes s s.mem_all).mem_iff,
    List.mem_map]
  simp only [List.mem_filter, decide_eq_true_eq]
  constructor
  · rintro ⟨op, hmem, rfl, hacc⟩
    exact ⟨op, ⟨hmem, rfl⟩, ((regular_of_mem_table op hmem).accepts_iff.mp hacc).symm⟩
  · rintro ⟨op, ⟨hmem, rfl⟩, hcode⟩
    exact ⟨op, hmem, rfl, (regular_of_mem_table op hmem).accepts_iff.mpr hcode.symm⟩

/-- The numbers that no opcode has. -/
def Unassigned (n : Nat) : Prop :=
  (0x008 ≤ n ∧ n ≤ 0x01F) ∨ (0x041 ≤ n ∧ n ≤ 0x05F)

instance (n : Nat) : Decidable (Unassigned n) :=
  inferInstanceAs (Decidable (_ ∨ _))

/-- The gaps are what no region covers. -/
theorem unassigned_iff {n : Nat} (hn : n < 4096) : Unassigned n ↔ ∀ s : Shape, ¬ s.Region n := by
  constructor
  · intro h s hs
    cases s <;> simp only [Unassigned, Shape.Region] at h hs <;> omega
  · intro h
    have hnone := h .noOperands
    have hfile := h .file
    have hdestination := h .fileAndDestination
    have hbit := h .fileAndBit
    have hliteral := h .literal
    have hgoto := h .goto
    have htris := h .tris
    simp only [Unassigned, Shape.Region] at hnone hfile hdestination hbit hliteral hgoto htris ⊢
    omega

theorem Unassigned.not_selector {n : Nat} (h : Unassigned n) : ¬ (n = 0x001 ∨ n = 0x005) := by
  rw [Unassigned] at h
  omega

/-- **Nothing is found** for the unassigned words, and for no other. -/
theorem matching_eq_none : matching w = none ↔ Unassigned (w.toNat % 4096) := by
  rw [matching_eq_lookup, lookup_eq_none, unassigned_iff (Nat.mod_lt _ (by decide))]
  constructor
  · intro h s hs
    obtain ⟨op, hmem, -, hacc⟩ := exists_entry_iff.mpr hs
    exact h op hmem hacc
  · intro h op hmem hacc
    exact h op.pattern.shape (exists_entry_iff.mp ⟨op, hmem, rfl, hacc⟩)

/-- The entry that a word finds has the word in its region. -/
theorem region_of_matching (h : matching w = some op) :
    op.pattern.shape.Region (w.toNat % 4096) := by
  obtain ⟨hmem, hacc⟩ := of_matching h
  exact exists_entry_iff.mp ⟨op, hmem, rfl, hacc⟩

/-- The opcodes without operands are looked at before `tris`. -/
theorem not_region_of_matching_tris (h : matching w = some op) (htris : op.pattern.shape = .tris) :
    ¬ Shape.noOperands.Region (w.toNat % 4096) := by
  intro hregion
  obtain ⟨hmem, hacc⟩ := of_matching h
  obtain ⟨b, hb, hshape, hbacc⟩ := exists_entry_iff.mpr hregion
  rcases shared_word hmem hb hacc hbacc with rfl | ⟨-, hname⟩ | ⟨hin, -⟩
  · rw [htris] at hshape
    cases hshape
  · rw [shape_of_tris b hb hname] at hshape
    cases hshape
  · rw [matching_of_insideTris hb hin hbacc] at h
    obtain rfl := Option.some.inj h
    rw [htris] at hshape
    cases hshape

end Opcode

/-! ### Operands that mean nothing -/

namespace Operand

variable {w : Word}

/-- The register field is refused from 8 to 15. -/
theorem decodeRegister_eq_error {c : OperandError} :
    decodeRegister w = .error c ↔
      (8 ≤ w.toNat % 32 ∧ w.toNat % 32 < 16) ∧ c = .invalidRegister (w.toNat % 32) := by
  have hnumber : (Field.register.extract w).toNat = w.toNat % 32 := by
    rw [Field.toNat_extract]
    simp [Field.register]
  rw [decodeRegister, hnumber, Register.ofNumber]
  split
  · rename_i himplemented
    refine iff_of_false (by simp) ?_
    rintro ⟨hreserved, -⟩
    omega
  · rename_i hreserved
    have hrange : 8 ≤ w.toNat % 32 ∧ w.toNat % 32 < 16 := by omega
    simp [hrange, eq_comm]

theorem ofNumber_extract_eq_error {c : OperandError} :
    TrisSelector.ofNumber (Field.tris.extract w).toNat = .error c ↔
      w.toNat % 8 < 6 ∧ c = .invalidTrisSelector (w.toNat % 8) := by
  have hnumber : (Field.tris.extract w).toNat = w.toNat % 8 := by
    rw [Field.toNat_extract]
    simp [Field.tris]
  have hlt : w.toNat % 8 < 8 := Nat.mod_lt _ (by decide)
  rw [hnumber]
  unfold TrisSelector.ofNumber
  split
  · rename_i hsix
    simp [hsix]
  · rename_i hseven
    simp [hseven]
  · rename_i hsix hseven
    have hless : w.toNat % 8 < 6 := by
      have : w.toNat % 8 ≠ 6 := hsix
      have : w.toNat % 8 ≠ 7 := hseven
      omega
    simp [hless, eq_comm]

/-- **The operand bits that mean nothing**: a reserved register, or a selector other than the two
that `tris` has. -/
theorem decode_eq_error {s : Shape} {c : OperandError} :
    decode s w = .error c ↔
      (s = .file ∨ s = .fileAndDestination ∨ s = .fileAndBit) ∧
          (8 ≤ w.toNat % 32 ∧ w.toNat % 32 < 16) ∧ c = .invalidRegister (w.toNat % 32) ∨
        s = .tris ∧ w.toNat % 8 < 6 ∧ c = .invalidTrisSelector (w.toNat % 8) := by
  cases s with
  | noOperands | literal | goto => simp [decode]
  | file | fileAndDestination | fileAndBit =>
      rw [decode, bind_fails, decodeRegister_eq_error]
      simp [pure, Except.pure]
  | tris =>
      rw [decode, bind_fails, ofNumber_extract_eq_error]
      simp [pure, Except.pure]

end Operand

/-! ### Words that are no instructions -/

/-- The error of a word that is no instruction, by its low twelve bits.  A word may be unassigned
and name a reserved register; it is then unassigned. -/
def codeError? (w : Word) : Option DecodeError :=
  let v := w &&& wordMask
  let n := v.toNat
  if Opcode.Unassigned n then some (.unknownOpcode v)
  else if n = 0x001 ∨ n = 0x005 then some (.operand v (.invalidTrisSelector n))
  else if (0x020 ≤ n ∧ n ≤ 0x7FF) ∧ n &&& 0x18 = 0x08 then
    some (.operand v (.invalidRegister (n &&& 0x1F)))
  else none

/-- Bits three and four of a number tell the reserved registers. -/
theorem and_eq_iff_reserved (n : Nat) : n &&& 0x18 = 0x08 ↔ 8 ≤ n % 32 ∧ n % 32 < 16 := by
  have hlow : n &&& 0x18 = n % 32 &&& 0x18 := by
    have h := Nat.and_mod_two_pow (a := n) (b := 0x18) (n := 5)
    have hle : n &&& 0x18 ≤ 0x18 := Nat.and_le_right
    rwa [Nat.mod_eq_of_lt (by omega)] at h
  have hsmall : ∀ m < 32, m &&& 0x18 = 0x08 ↔ 8 ≤ m ∧ m < 16 := by decide
  rw [hlow]
  exact hsmall _ (Nat.mod_lt _ (by decide))

/-- The number of a word that is an instruction. -/
structure LegalCode (n : Nat) : Prop where
  assigned : ¬ (0x008 ≤ n ∧ n ≤ 0x01F) ∧ ¬ (0x041 ≤ n ∧ n ≤ 0x05F)
  selector : n ≠ 0x001 ∧ n ≠ 0x005
  register : ¬ (0x020 ≤ n ∧ n ≤ 0x7FF ∧ n &&& 0x18 = 0x08)

instance (n : Nat) : Decidable (LegalCode n) :=
  decidable_of_iff
    ((¬ (0x008 ≤ n ∧ n ≤ 0x01F) ∧ ¬ (0x041 ≤ n ∧ n ≤ 0x05F)) ∧ (n ≠ 0x001 ∧ n ≠ 0x005) ∧
      ¬ (0x020 ≤ n ∧ n ≤ 0x7FF ∧ n &&& 0x18 = 0x08))
    ⟨fun ⟨hassigned, hselector, hregister⟩ => ⟨hassigned, hselector, hregister⟩,
      fun h => ⟨h.assigned, h.selector, h.register⟩⟩

theorem codeError?_eq_none {w : Word} :
    codeError? w = none ↔ LegalCode (w &&& wordMask).toNat := by
  simp only [codeError?]
  split
  · rename_i hun
    exact iff_of_false nofun fun h => hun.elim h.assigned.1 h.assigned.2
  rename_i hun
  split
  · rename_i hsel
    exact iff_of_false nofun fun h => hsel.elim h.selector.1 h.selector.2
  rename_i hsel
  split
  · rename_i hreg
    exact iff_of_false nofun fun h => h.register ⟨hreg.1.1, hreg.1.2, hreg.2⟩
  · rename_i hreg
    refine iff_of_true rfl ⟨not_or.mp hun, not_or.mp hsel, ?_⟩
    rintro ⟨hlow, hhigh, hbits⟩
    exact hreg ⟨⟨hlow, hhigh⟩, hbits⟩

/-- **The error of a number**: a gap, a selector that `tris` does not have, or a reserved register.
-/
theorem codeError?_eq_some {w : Word} {e : DecodeError} {n : Nat}
    (hn : (w &&& wordMask).toNat = n) :
    codeError? w = some e ↔
      Opcode.Unassigned n ∧ e = .unknownOpcode (w &&& wordMask) ∨
      (n = 0x001 ∨ n = 0x005) ∧ e = .operand (w &&& wordMask) (.invalidTrisSelector n) ∨
      (¬ Opcode.Unassigned n ∧ (0x020 ≤ n ∧ n ≤ 0x7FF) ∧ 8 ≤ n % 32 ∧ n % 32 < 16) ∧
        e = .operand (w &&& wordMask) (.invalidRegister (n % 32)) := by
  have hregister : n &&& 0x1F = n % 32 := Nat.and_two_pow_sub_one_eq_mod n 5
  simp only [codeError?, hn, hregister, and_eq_iff_reserved]
  split
  · rename_i hun
    simp [hun, hun.not_selector, eq_comm]
  rename_i hun
  split
  · rename_i hsel
    -- The selectors lie below the words that name a register.
    have hlow : ¬ (0x020 ≤ n ∧ n ≤ 0x7FF) := by omega
    simp [hun, hsel, hlow, eq_comm]
  rename_i hsel
  split
  · rename_i hreg
    simp [hun, hsel, hreg, eq_comm]
  · rename_i hreg
    simp [hun, hsel, hreg]

namespace Instruction

variable {w : Word} {e : DecodeError}

/-- A word fails to decode for want of an entry, or for the operands of the entry found. -/
theorem decode_fails :
    decode w = .error e ↔
      Opcode.matching w = none ∧ e = .unknownOpcode (w &&& wordMask) ∨
      ∃ op c, Opcode.matching w = some op ∧
        Operand.decode op.pattern.shape (w &&& wordMask) = .error c ∧
        e = .operand (w &&& wordMask) c := by
  have hmatching : Opcode.matching (w &&& wordMask) = Opcode.matching w := by
    simp only [Opcode.matching, Opcode.lookup_and_wordMask]
  simp only [decode, hmatching]
  cases h : Opcode.matching w with
  | none => simp [eq_comm]
  | some op =>
      have hp := Opcode.regular_of_mem_table op (Opcode.of_matching h).1
      have hbits : ∀ i < op.pattern.shape.width, op.pattern.operandMask.getLsbD i := by
        intro i hi
        rw [hp.operandMask_eq]
        simpa using hi
      simp only [Operand.decode_and hbits]
      cases hop : Operand.decode op.pattern.shape (w &&& wordMask) with
      | error c => simp [hop, eq_comm]
      | ok operands => simp [hop]

/-- **The words that are no instructions**, and what is wrong with each. -/
theorem decode_eq_error : decode w = .error e ↔ codeError? w = some e := by
  obtain ⟨n, hn⟩ : ∃ n, w.toNat % 4096 = n := ⟨_, rfl⟩
  have hv : (w &&& wordMask).toNat = n := by rw [toNat_and_wordMask, hn]
  rw [decode_fails, codeError?_eq_some hv]
  cases hm : Opcode.matching w with
  | none =>
      have hun : Opcode.Unassigned n := hn ▸ Opcode.matching_eq_none.mp hm
      simp [hun, hun.not_selector]
  | some op =>
      have hun : ¬ Opcode.Unassigned n := by
        rw [← hn, ← Opcode.matching_eq_none, hm]
        nofun
      have hregion : op.pattern.shape.Region n := hn ▸ Opcode.region_of_matching hm
      -- What the operand bits can be wrong in depends on the shape, and the shape on the region.
      simp only [Operand.decode_eq_error, hv, Option.some.injEq, reduceCtorEq, false_and, false_or,
        exists_and_left, exists_eq_left']
      cases hs : op.pattern.shape with
      | noOperands | literal | goto =>
          rw [hs, Shape.Region] at hregion
          have hsel : ¬ (n = 0x001 ∨ n = 0x005) := by omega
          have hreg : ¬ ((0x020 ≤ n ∧ n ≤ 0x7FF) ∧ 8 ≤ n % 32 ∧ n % 32 < 16) := by omega
          simp [hun, hsel, hreg]
      | file | fileAndDestination | fileAndBit =>
          rw [hs, Shape.Region] at hregion
          have hsel : ¬ (n = 0x001 ∨ n = 0x005) := by omega
          have hrange : 0x020 ≤ n ∧ n ≤ 0x7FF := by omega
          simp [hun, hsel, hrange]
      | tris =>
          have hfixed : ¬ Shape.noOperands.Region n :=
            hn ▸ Opcode.not_region_of_matching_tris hm hs
          rw [hs, Shape.Region] at hregion
          rw [Shape.Region] at hfixed
          -- The words 0, 2, 3 and 4 belong to other opcodes; 6 and 7 are the selectors there are.
          have hsel : n % 8 < 6 ↔ n = 0x001 ∨ n = 0x005 := by omega
          have hlow : ¬ (0x020 ≤ n ∧ n ≤ 0x7FF) := by omega
          have hmod : n % 8 = n := by omega
          simp only [hsel, hlow]
          simp [hun, hmod]

end Instruction

end PicBaseline
