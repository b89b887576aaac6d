import PicBaseline.Program.Basic
import PicBaseline.Proofs.Instruction
import PicBaseline.Proofs.Operand.Text

/-!
# Proofs — listings show all of a program

The mnemonics of the instruction set are different words, and a mnemonic fixes the shape of the
operands after it; so the text of an instruction of the set shows the instruction
(`Instruction.text_inj`).  The word in front of the colon tells a configuration word from a
statement and gives the statement's address (`Record.text_inj`).

No line of a listing has a line feed in it, so a listing splits into its lines
(`Program.lines_listing`), and the lines give the records back (`Program.listing_inj`).
-/

namespace PicBaseline

open Text (IsWord EndsWord)

/-! ### Mnemonics -/

namespace Opcode

theorem isWord_names : ∀ s ∈ table.map name, IsWord s := by
  decide +kernel

theorem isWord_name {op : Opcode} (h : op ∈ table) : IsWord op.name :=
  isWord_names op.name (List.mem_map_of_mem h)

end Opcode

/-! ### Instructions of the set -/

attribute [ext] Instruction Program

namespace Instruction

/-- An entry of the instruction set, with operands of its shape. -/
structure Listed (i : Instruction) : Prop where
  mem : i.opcode ∈ Opcode.table
  shape : i.operands.shape = i.opcode.pattern.shape

theorem listed_of_decode {w : Word} {i : Instruction} (h : decode w = .ok i) : i.Listed := by
  obtain ⟨hmem, -, hoperands⟩ := of_decode h
  exact ⟨hmem, (Operand.encode_of_decode hoperands).1⟩

/-- What follows the mnemonic: nothing, or a blank and the operands. -/
def operandText (i : Instruction) : List Char :=
  if i.operands = .noOperands then [] else ' ' :: i.operands.text.toList

/-- The text of an instruction: the mnemonic, then the operands with what stands in front of them.
-/
theorem toList_text (i : Instruction) :
    i.text.toList = i.opcode.name.toList ++ i.operandText := by
  obtain ⟨op, x⟩ := i
  cases x <;> simp [text, operandText]

/-- What follows the mnemonic does not go on with it. -/
theorem endsWord_operandText (i : Instruction) : EndsWord i.operandText := by
  unfold operandText
  split
  · simp [EndsWord]
  · simp [EndsWord, Text.isWordChar]

/-- Of one shape, the text tells the operands. -/
theorem operandText_inj {i j : Instruction} (hshape : i.operands.shape = j.operands.shape)
    (h : i.operandText = j.operandText) : i.operands = j.operands := by
  unfold operandText at h
  split at h <;> split at h
  · rename_i hi hj
    rw [hi, hj]
  · cases h
  · cases h
  · exact Operand.text_inj hshape (String.toList_injective (List.cons.inj h).2)

/-- **Instructions show differently**: the mnemonic gives the opcode, and with it the shape. -/
theorem text_inj {i j : Instruction} (hi : i.Listed) (hj : j.Listed) (h : i.text = j.text) :
    i = j := by
  have hlist := congrArg String.toList h
  rw [toList_text, toList_text] at hlist
  obtain ⟨hname, hrest⟩ := (Opcode.isWord_name hi.mem).append_inj (Opcode.isWord_name hj.mem)
    (endsWord_operandText i) (endsWord_operandText j) hlist
  -- the mnemonic is the same, so the entry is, and with it the shape of the operands
  have hop := Opcode.name_inj hi.mem hj.mem hname
  have hshape : i.operands.shape = j.operands.shape := by rw [hi.shape, hj.shape, hop]
  exact Instruction.ext hop (operandText_inj hshape hrest)

theorem newline_notMem_text {i : Instruction} (h : i.Listed) : '\n' ∉ i.text.toList := by
  rw [toList_text, List.mem_append, not_or]
  refine ⟨(Opcode.isWord_name h.mem).notMem (by decide), ?_⟩
  unfold operandText
  split
  · exact List.not_mem_nil
  · simp [Operand.newline_notMem_text]

end Instruction

/-! ### Records -/

namespace Record

/-- A configuration word, or a statement of the instruction set. -/
def Listed (r : Record) : Prop :=
  ∀ s ∈ r.statement?, s.instruction.Listed

/-- The word in front of the colon. -/
def label : Record → String
  | config _    => "config"
  | statement s => hexText 2 s.address.toNat

/-- What follows the colon and the blank. -/
def body : Record → String
  | config w    => hexText 4 w.toNat
  | statement s => s.instruction.text

/-- A line is a label, a colon and a body. -/
theorem text_eq (r : Record) : r.text = r.label ++ ": " ++ r.body := by
  cases r <;> simp [text, Statement.text, label, body]

/-- The label is one word: an address, or `config`. -/
theorem isWord_label (r : Record) : IsWord r.label := by
  cases r with
  | config w => exact (by decide : IsWord "config")
  | statement s => exact isWord_hexText 2 s.address.toNat

/-- Addresses end in `h`. -/
theorem hexText_ne_config (width n : Nat) : hexText width n ≠ "config" := by
  intro h
  have hlast := congrArg (fun s => s.toList.getLast?) h
  simp [hexText] at hlast

/-- **Records of one text are one record.** -/
theorem text_inj {r r' : Record} (hr : r.Listed) (hr' : r'.Listed) (h : r.text = r'.text) :
    r = r' := by
  have hlist := congrArg String.toList h
  simp only [text_eq, String.toList_append, List.append_assoc] at hlist
  obtain ⟨hlabel, hrest⟩ := r.isWord_label.append_inj r'.isWord_label
    (by simp [EndsWord]; decide) (by simp [EndsWord]; decide) hlist
  have hbody : r.body = r'.body := String.toList_injective (List.append_cancel_left hrest)
  -- The label tells the kind, and of a statement the address; the body tells the rest.
  cases r with
  | config w =>
      cases r' with
      | config w' => rw [BitVec.eq_of_toNat_eq (hexText_inj hbody)]
      | statement s' => exact absurd hlabel.symm (hexText_ne_config 2 s'.address.toNat)
  | statement s =>
      cases r' with
      | config w' => exact absurd hlabel (hexText_ne_config 2 s.address.toNat)
      | statement s' =>
          obtain ⟨a, i⟩ := s
          obtain ⟨a', i'⟩ := s'
          obtain rfl : a = a' := BitVec.eq_of_toNat_eq (hexText_inj hlabel)
          obtain rfl : i = i' := Instruction.text_inj (hr _ rfl) (hr' _ rfl) hbody
          rfl

theorem newline_notMem_text {r : Record} (h : r.Listed) : '\n' ∉ r.text.toList := by
  have hlabel : '\n' ∉ r.label.toList := r.isWord_label.notMem (by decide)
  have hbody : '\n' ∉ r.body.toList := by
    cases r with
    | config w => exact (isWord_hexText 4 w.toNat).notMem (by decide)
    | statement s => exact Instruction.newline_notMem_text (h s rfl)
  simp [text_eq, hlabel, hbody]

end Record

/-! ### Listings -/

namespace Program

/-- Every statement is of the instruction set. -/
def Listed (p : Program) : Prop :=
  ∀ r ∈ p.records, r.Listed

theorem newline_notMem_text (p : Program) : '\n' ∉ p.text.toList := by
  have hcount : '\n' ∉ (Text.decimal p.statements.length).toList :=
    (Text.isWord_decimal _).notMem (by decide)
  simp [text, hcount]

/-- **A listing splits into the count and the texts of the records.** -/
theorem lines_listing {p : Program} (h : p.Listed) :
    p.listing.toList.splitOn '\n' = (p.text :: p.records.map Record.text).map String.toList := by
  rw [listing, String.toList_intercalate]
  refine List.splitOn_intercalate '\n' ?_ (by simp)
  simp only [List.map_cons, List.map_map, List.forall_mem_cons, List.forall_mem_map]
  exact ⟨p.newline_notMem_text, fun r hr => Record.newline_notMem_text (h r hr)⟩

/-- **Programs of one listing are one program.** -/
theorem listing_inj {p q : Program} (hp : p.Listed) (hq : q.Listed)
    (h : p.listing = q.listing) : p = q := by
  have hlines := lines_listing hp
  rw [h, lines_listing hq] at hlines
  have htexts := (List.map_injective_iff.mpr fun _ _ => String.toList_injective) hlines
  exact Program.ext (map_inj_of_forall Record.text_inj hq hp (List.cons.inj htexts).2).symm

/-- The number in the first line counts the records that are statements. -/
theorem length_statements (p : Program) :
    p.statements.length = p.records.countP fun r => r.statement?.isSome := by
  rw [statements, List.length_filterMap_eq_countP]

end Program

end PicBaseline
