import Mathlib.Data.List.Nodup
import PicBaseline.Instruction
import PicBaseline.Proofs.Pattern.Compile

/-!
# Proofs — the instruction set and its coding

Every pattern of the instruction set is compiled from a text, so the facts about compiled patterns
hold of each entry (`regular_of_mem_table`).  A mnemonic names one entry (`name_inj`), and a word
finds an entry that accepts it (`of_matching`).

The low twelve bits of a word decide its decoding (`decode_and_wordMask`), and an instruction
encodes to them (`encode_of_decode`), whatever entry of the instruction set the word finds; so it
decodes from its own encoding (`decode_encode_of_decode`).
-/

namespace PicBaseline

/-! ### Entries -/

namespace Opcode

theorem regular_patternOf {s : String} (h : (Pattern.compile s).toOption.isSome) :
    (patternOf s h).Regular := by
  obtain ⟨p, hp⟩ := returns_of_isSome h
  have hpat : patternOf s h = p := by simp [patternOf, hp, Except.toOption]
  rw [hpat]
  exact Pattern.regular_of_compile hp

/-- **Every entry of the instruction set is regular**, as its pattern is compiled. -/
theorem regular_of_mem_table : ∀ op ∈ table, op.pattern.Regular := by
  simp only [table, List.forall_mem_cons, List.not_mem_nil, false_implies, implies_true, and_true]
  and_intros <;> exact regular_patternOf _

/-- No mnemonic is there twice. -/
theorem nodup_names : (table.map name).Nodup := by
  decide +kernel

/-- A mnemonic names one entry. -/
theorem name_inj {op op' : Opcode} (h : op ∈ table) (h' : op' ∈ table)
    (hname : op.name = op'.name) : op = op' :=
  List.inj_on_of_nodup_map nodup_names h h' hname

/-- What a table finds is one of its entries and accepts the word. -/
theorem of_lookup {entries : List Opcode} {w : Word} {op : Opcode}
    (h : lookup entries w = some op) : op ∈ entries ∧ op.pattern.accepts w := by
  unfold lookup at h
  exact ⟨List.mem_of_find?_eq_some h, by simpa using List.find?_some h⟩

/-- A pattern looks at the low twelve bits only, and so does a table of patterns. -/
theorem lookup_and_wordMask (entries : List Opcode) (w : Word) :
    lookup entries (w &&& wordMask) = lookup entries w := by
  simp only [lookup, Pattern.accepts_and_wordMask]

/-- Masking the word first changes nothing: the patterns do not look at the upper bits. -/
theorem matching_eq_lookup (w : Word) : matching w = lookup table w :=
  lookup_and_wordMask table w

/-- The opcode of a word is an entry of the instruction set that accepts it. -/
theorem of_matching {w : Word} {op : Opcode} (h : matching w = some op) :
    op ∈ table ∧ op.pattern.accepts w :=
  of_lookup (matching_eq_lookup w ▸ h)

end Opcode

/-! ### Decoding and encoding -/

namespace Instruction

/-- The upper four bits of a word are not looked at. -/
theorem decode_and_wordMask (w : Word) : decode (w &&& wordMask) = decode w := by
  simp only [decode, BitVec.and_assoc, BitVec.and_self]

/-- What decodes is an entry of the instruction set that accepts the word, with operands that
decode from it. -/
theorem of_decode {w : Word} {i : Instruction} (h : decode w = .ok i) :
    i.opcode ∈ Opcode.table ∧ i.opcode.pattern.accepts (w &&& wordMask) ∧
      Operand.decode i.opcode.pattern.shape (w &&& wordMask &&& i.opcode.pattern.operandMask) =
        .ok i.operands := by
  unfold decode at h
  dsimp only at h
  split at h
  · cases h
  · rename_i op hop
    split at h
    · cases h
    · rename_i x hx
      cases h
      obtain ⟨hmem, hacc⟩ := Opcode.of_matching hop
      exact ⟨hmem, hacc, hx⟩

/-- **An instruction encodes to the word it decodes from**, less the upper four bits. -/
theorem encode_of_decode {w : Word} {i : Instruction} (h : decode w = .ok i) :
    i.encode = w &&& wordMask := by
  obtain ⟨hmem, hacc, hop⟩ := of_decode h
  have hp := Opcode.regular_of_mem_table _ hmem
  have hx := (Operand.encode_of_decode hop).2
  rw [hp.operandMask_eq, BitVec.and_assoc, BitVec.and_self] at hx
  rw [encode, hx, hp.or_of_accepts hacc, BitVec.and_assoc, BitVec.and_self]

/-- What decodes comes back from its own encoding. -/
theorem decode_encode_of_decode {w : Word} {i : Instruction} (h : decode w = .ok i) :
    decode i.encode = .ok i := by
  rw [encode_of_decode h, decode_and_wordMask, h]

end Instruction

end PicBaseline
