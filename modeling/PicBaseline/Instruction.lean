import PicBaseline.Opcode
import PicBaseline.Operand.Representation

/-!
# Instructions

An instruction is an opcode with its operands.  Decoding looks at the low twelve bits of a word;
a word may carry no opcode, or an opcode with operand bits that mean nothing.
-/

namespace PicBaseline

structure Instruction where
  opcode : Opcode
  operands : Operand
  deriving DecidableEq

/-- Why a word is no instruction. -/
inductive DecodeError where
  | unknownOpcode (word : Word)
  | operand (word : Word) (cause : OperandError)
  deriving DecidableEq

namespace DecodeError

/-- Lower-case hexadecimal with the marker `0x`, at least three digits. -/
def wordText (w : Word) : String :=
  "0x" ++ Text.lowerHex 3 w.toNat

/-- Both messages show the twelve bits that were looked at. -/
def message : DecodeError → String
  | unknownOpcode w => "no opcode matches " ++ wordText w
  | operand w _     => "invalid operand in " ++ wordText w

/-- The messages from the error down to its cause. -/
def chain (e : DecodeError) : List String :=
  e.message :: match e with
    | unknownOpcode _ => []
    | operand _ cause => [cause.message]

end DecodeError

/-- A decoder of instruction words. -/
abbrev Decoder := Word → Except DecodeError Instruction

namespace Instruction

/-- The operand bits under the opcode. -/
def encode (i : Instruction) : Word :=
  i.opcode.pattern.opcode ||| i.operands.encode

/-- The decoder of the instruction set. -/
def decode : Decoder := fun word =>
  let w := word &&& wordMask
  match Opcode.matching w with
  | none    => .error (.unknownOpcode w)
  | some op =>
      match Operand.decode op.pattern.shape (w &&& op.pattern.operandMask) with
      | .error cause => .error (.operand w cause)
      | .ok operands => .ok ⟨op, operands⟩

/-- The mnemonic, and a space in front of operands if there are any. -/
def text (i : Instruction) : String :=
  match i.operands with
  | .noOperands => i.opcode.name
  | operands    => i.opcode.name ++ " " ++ operands.text

end Instruction

end PicBaseline
