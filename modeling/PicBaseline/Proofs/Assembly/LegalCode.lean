import PicBaseline.Proofs.Assembly.Acceptance
import PicBaseline.Proofs.Opcode.CodeSpace

/-!
# Proofs — images of legal code

An image is *well-formed* when everything about it is in order but perhaps its words of code: where
its records lie, how long they are and which kinds there are.  `codeFrom` lists these words, in the
order of the records, each with the number of its record and its address.

* `fault_record`: a record of a well-formed image has a fault for the first of its words of code
  that the decoder refuses, and for nothing else.
* `failure?_recordsFrom`: so has the walk.
* `assemble_accepts_legal_code`: with the decoder of the instruction set, a word is refused for its
  number, by the ranges of `LegalCode`.
-/

namespace PicBaseline

namespace Assembly

variable {D : Decoder}

/-! ### Well-formed images -/

/-- Every record fits, and an end of file is the last one. -/
structure WellFormed (rs : List HexRecord) : Prop where
  endOfFile_last : .endOfFile ∉ rs.dropLast
  fits : ∀ r ∈ rs, RecordFits r

instance (rs : List HexRecord) : Decidable (WellFormed rs) :=
  decidable_of_iff (.endOfFile ∉ rs.dropLast ∧ ∀ r ∈ rs, RecordFits r)
    ⟨fun ⟨hlast, hfits⟩ => ⟨hlast, hfits⟩, fun h => ⟨h.endOfFile_last, h.fits⟩⟩

theorem WellFormed.of_cons {r : HexRecord} {rest : List HexRecord} (h : WellFormed (r :: rest)) :
    RecordFits r ∧ (r = .endOfFile → rest = []) ∧ WellFormed rest := by
  obtain ⟨hlast, hfits⟩ := h
  obtain ⟨hr, hrest⟩ := List.forall_mem_cons.mp hfits
  cases rest with
  | nil => exact ⟨hr, fun _ => rfl, List.not_mem_nil, hrest⟩
  | cons q rest =>
      rw [List.dropLast_cons_cons, List.mem_cons, not_or] at hlast
      exact ⟨hr, fun heof => absurd heof.symm hlast.1, hlast.2, hrest⟩

/-! ### Words of code -/

/-- A word of code, with the number of its record and its word address. -/
structure CodeWord where
  line : Nat
  address : Word
  word : Word
  deriving DecidableEq

/-- The report that the word is refused. -/
def CodeWord.report (c : CodeWord) (cause : DecodeError) : AssembleError :=
  ⟨c.line, .decode c.address cause⟩

/-- The words of code of a record. -/
def codeOf (line : Nat) : HexRecord → List CodeWord
  | .data a bytes =>
      if a = 0x1FFE#16 then []
      else (List.range (bytes.length / 2)).map fun i =>
        ⟨line, BitVec.ofNat 16 (a.toNat / 2 + i), wordAt bytes i⟩
  | _ => []

/-- The words of code of records that are numbered from `line` on. -/
def codeFrom : Nat → List HexRecord → List CodeWord
  | _, []           => []
  | line, r :: rest => codeOf line r ++ codeFrom (line + 1) rest

/-- The report of the first word that a decoder refuses. -/
def firstRefused? (D : Decoder) (code : List CodeWord) : Option AssembleError :=
  code.findSome? fun c => (failure? (D c.word)).map c.report

/-! ### One record -/

theorem upToFault_fault (placed : List (Except Fault Record)) :
    (upToFault placed).fault = placed.findSome? failure? := by
  induction placed with
  | nil => rfl
  | cons x placed ih =>
      cases x with
      | error f => rfl
      | ok r => exact ih

/-- A word in memory is placed unless it is refused. -/
theorem failure?_place {n : Nat} (h : n ≤ 0xFF) (w : Word) :
    failure? (place D n w) = (failure? (D w)).map (.decode (BitVec.ofNat 16 n)) := by
  rw [place_of_le h]
  cases D w <;> rfl

/-- A data record that fits has a fault only for a word. -/
theorem fault_dataRecord {a : Word} {bytes : List Byte} (h : DataFits a bytes) (line : Nat) :
    (dataRecord D a bytes).fault.map (AssembleError.mk line) =
      firstRefused? D (codeOf line (.data a bytes)) := by
  have heven : ¬ a.toNat % 2 = 1 := by
    have := h.even
    omega
  rw [dataRecord_eq, if_neg heven, codeOf]
  by_cases hconfig : a = 0x1FFE#16
  · rw [if_pos hconfig, if_pos (h.config hconfig), if_pos hconfig]
    rfl
  · obtain ⟨hlen, hmem⟩ := h.code hconfig
    have hodd : ¬ bytes.length % 2 = 1 := by omega
    rw [if_neg hconfig, if_neg hodd, if_neg hconfig, upToFault_fault, placements, firstRefused?,
      List.map_findSome?, List.findSome?_map, List.findSome?_map, ← List.head?_filterMap,
      ← List.head?_filterMap]
    -- Both sides go through the same positions, and each position has the same report.
    congr 1
    refine List.filterMap_congr ?_
    intro i hi
    have hi := List.mem_range.mp hi
    simp only [Function.comp_apply, failure?_place (show a.toNat / 2 + i ≤ 0xFF by omega),
      Option.map_map]
    rfl

/-- **A record has a fault for the first refused word**, and for nothing else. -/
theorem fault_record {r : HexRecord} {last : Bool} (h : RecordFits r)
    (hlast : r = .endOfFile → last = true) (line : Nat) :
    (record D last r).fault.map (AssembleError.mk line) = firstRefused? D (codeOf line r) := by
  cases r with
  | data a bytes => exact fault_dataRecord h line
  | endOfFile =>
      rw [hlast rfl]
      rfl
  | extendedLinearAddress u =>
      obtain rfl : u = 0#16 := h
      rfl
  | startSegmentAddress | extendedSegmentAddress | startLinearAddress => exact h.elim

/-! ### The walk -/

/-- **The walk fails for the first refused word**, and for nothing else. -/
theorem failure?_recordsFrom {rs : List HexRecord} (h : WellFormed rs) (line : Nat) :
    failure? (recordsFrom D line rs) = firstRefused? D (codeFrom line rs) := by
  induction rs generalizing line with
  | nil => rfl
  | cons r rest ih =>
      obtain ⟨hr, hlast, hrest⟩ := h.of_cons
      have hstep : (record D rest.isEmpty r).fault.map (AssembleError.mk line) =
          firstRefused? D (codeOf line r) := fault_record hr (by simpa using hlast) line
      have hsplit : firstRefused? D (codeFrom line (r :: rest)) =
          (firstRefused? D (codeOf line r)).or (firstRefused? D (codeFrom (line + 1) rest)) :=
        List.findSome?_append
      rw [hsplit, ← hstep, ← ih hrest]
      cases hf : (record D rest.isEmpty r).fault with
      | some f =>
          rw [recordsFrom_cons_fault hf]
          rfl
      | none =>
          rw [recordsFrom_cons_taken hf]
          cases recordsFrom D (line + 1) rest <;> rfl

end Assembly

open Assembly

/-- **The report of a well-formed image** is that of its first refused word, if there is one. -/
theorem failure?_assembleWith {D : Decoder} {rs : List HexRecord} (h : WellFormed rs) :
    failure? (assembleWith D rs) = firstRefused? D (codeFrom 1 rs) := by
  rw [← failure?_recordsFrom h, assembleWith]
  cases recordsFrom D 1 rs <;> rfl

/-- The decoder of the instruction set refuses a word for its number. -/
theorem failure?_decode (w : Word) : failure? (Instruction.decode w) = codeError? w := by
  refine Option.ext fun e => ?_
  rw [failure?_eq_some, Instruction.decode_eq_error]

/-- **The machine language of the instruction set.**  A well-formed image assembles if and only if
the low twelve bits of each of its words of code are in the legal ranges.  Otherwise the report is
that of the first word, in the order of the records, that is not: with the number of its record, its
address, and the error that its number has. -/
theorem assemble_accepts_legal_code {rs : List HexRecord} (h : WellFormed rs) :
    ((∃ p, assemble rs = .ok p) ↔
      ∀ c ∈ codeFrom 1 rs, LegalCode (c.word &&& wordMask).toNat) ∧
    ∀ e, assemble rs = .error e ↔
      (codeFrom 1 rs).findSome? (fun c => (codeError? c.word).map c.report) = some e := by
  have hfirst : failure? (assemble rs) =
      (codeFrom 1 rs).findSome? fun c => (codeError? c.word).map c.report := by
    rw [assemble, failure?_assembleWith h, firstRefused?]
    simp only [failure?_decode]
  refine ⟨?_, fun e => ?_⟩
  · rw [← failure?_eq_none, hfirst, List.findSome?_eq_none_iff]
    simp only [Option.map_eq_none_iff, codeError?_eq_none]
  · rw [← failure?_eq_some, hfirst]

/-- The last two words of memory, the second of which is unassigned and would name a reserved
register: behind it stand a configuration word that would be no instruction, and a selector that
`tris` does not have.  Without that word the selector is reported, and without both there is a
program. -/
theorem assemble_accepts_legal_code_last_word :
    let code (low : Byte) : HexRecord := .data 0x1FC#16 [0xC0#8, 0xF1#8, low, 0x00#8]
    let config : HexRecord := .data 0x1FFE#16 [0x08#8, 0x00#8]
    let selector (low : Byte) : HexRecord := .data 0x000#16 [low, 0x00#8]
    let empty : HexRecord := .data 0x8000#16 []
    (WellFormed [code 0x48#8, config, selector 0x05#8, .endOfFile] ∧
      assemble [code 0x48#8, config, selector 0x05#8, .endOfFile] =
        .error ⟨1, .decode 0xFF#16 (.unknownOpcode 0x048#16)⟩) ∧
    (WellFormed [code 0x40#8, config, selector 0x05#8, .endOfFile] ∧
      assemble [code 0x40#8, config, selector 0x05#8, .endOfFile] =
        .error ⟨3, .decode 0x00#16 (.operand 0x005#16 (.invalidTrisSelector 5))⟩) ∧
    (WellFormed [code 0x6D#8, empty] ∧
      assemble [code 0x6D#8, empty] =
        .error ⟨1, .decode 0xFF#16 (.operand 0x06D#16 (.invalidRegister 13))⟩) ∧
    (WellFormed [code 0x40#8, config, selector 0x06#8, empty] ∧
      ∃ p, assemble [code 0x40#8, config, selector 0x06#8, empty] = .ok p) := by
  intro code config selector empty
  have hgap : WellFormed [code 0x48#8, config, selector 0x05#8, .endOfFile] := by decide
  have hselector : WellFormed [code 0x40#8, config, selector 0x05#8, .endOfFile] := by decide
  have hregister : WellFormed [code 0x6D#8, empty] := by decide
  have hlegal : WellFormed [code 0x40#8, config, selector 0x06#8, empty] := by decide
  exact ⟨⟨hgap, ((assemble_accepts_legal_code hgap).2 _).mpr (by decide)⟩,
    ⟨hselector, ((assemble_accepts_legal_code hselector).2 _).mpr (by decide)⟩,
    ⟨hregister, ((assemble_accepts_legal_code hregister).2 _).mpr (by decide)⟩,
    hlegal, (assemble_accepts_legal_code hlegal).1.mpr (by decide)⟩

end PicBaseline
