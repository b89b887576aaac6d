import PicBaseline.Operand.Basic
import PicBaseline.Status

/-!
# Operands — as bits and as text

The bit fields of each shape, and operands to and from the bits of a word.  Encoding fills the
fields of an otherwise clear word; decoding looks at the fields of its shape and at no other bit,
and checks the register before anything else.

In a listing a register shows by name where it has one, and else as two hexadecimal digits; bits of
the STATUS register show by the short name of their flag.
-/

namespace PicBaseline

/-! ### Bits -/

namespace Field

/-- Bits 0 to 4: the number of a register. -/
def register    : Field := { lo := 0, hi := 5 }
/-- Bit 5: where the result goes. -/
def destination : Field := { lo := 5, hi := 6 }
/-- Bits 5 to 7: the position of a bit. -/
def bitNumber   : Field := { lo := 5, hi := 8 }
/-- Bits 0 to 7: a byte. -/
def literal     : Field := { lo := 0, hi := 8 }
/-- Bits 0 to 8: the target of a branch. -/
def address     : Field := { lo := 0, hi := 9 }
/-- Bits 0 to 2: the selector of `tris`. -/
def tris        : Field := { lo := 0, hi := 3 }

end Field

def Destination.encode : Destination → Word
  | working => 0#16
  | file    => 1#16

/-- Clear means the working register; the field has one bit, so what is not clear is `file`. -/
def Destination.decode (bits : Word) : Destination :=
  if bits = 0#16 then .working else .file

namespace Operand

/-- The word with a register number in its register field and nothing else. -/
def registerBits (r : Register) : Word :=
  Field.register.insert 0#16 (BitVec.ofNat 16 r.number)

/-- The operand bits of a word, all others clear. -/
def encode : Operand → Word
  | noOperands             => 0#16
  | file r                 => registerBits r
  | fileAndDestination r d => Field.destination.insert (registerBits r) d.encode
  | fileAndBit r b         => Field.bitNumber.insert (registerBits r) (BitVec.ofNat 16 b.val)
  | literal v              => Field.literal.insert 0#16 (v.setWidth 16)
  | goto a                 => Field.address.insert 0#16 (BitVec.ofNat 16 a.val)
  | tris s                 => Field.tris.insert 0#16 (BitVec.ofNat 16 s.register.number)

/-- The register field names one of 32 numbers, of which eight are refused. -/
def decodeRegister (w : Word) : Except OperandError Register :=
  Register.ofNumber (Field.register.extract w).toNat

/-- Operands of the given shape.  Of the fields only the register and the selector of `tris` can be
refused. -/
def decode (shape : Shape) (w : Word) : Except OperandError Operand :=
  match shape with
  | .noOperands => .ok noOperands
  | .file => do
      let r ← decodeRegister w
      return file r
  | .fileAndDestination => do
      let r ← decodeRegister w
      return fileAndDestination r (Destination.decode (Field.destination.extract w))
  | .fileAndBit => do
      let r ← decodeRegister w
      return fileAndBit r (Fin.ofNat 8 (Field.bitNumber.extract w).toNat)
  | .literal => .ok (literal ((Field.literal.extract w).setWidth 8))
  | .goto => .ok (goto (Fin.ofNat (addressMax + 1) (Field.address.extract w).toNat))
  | .tris => do
      let s ← TrisSelector.ofNumber (Field.tris.extract w).toNat
      return tris s

end Operand

/-! ### Text -/

/-- Upper-case hexadecimal with the suffix `h`. -/
def hexText (width n : Nat) : String :=
  Text.upperHex width n ++ "h"

/-- The name of a special function register; any other shows its number. -/
def Register.text (r : Register) : String :=
  r.name?.getD (hexText 2 r.number)

def BitNumber.text (b : BitNumber) : String :=
  Text.decimal b.val

/-- Three digits, as the highest address has. -/
def Address.text (a : Address) : String :=
  hexText 3 a.val

def Destination.text : Destination → String
  | working => "w"
  | file    => "f"

/-- A selector shows as its register. -/
def TrisSelector.text (s : TrisSelector) : String :=
  s.register.text

namespace Operand

/-- A bit of a register: the flag's short name in STATUS, if the bit has one. -/
def bitText (r : Register) (b : BitNumber) : String :=
  match if r = Register.status then Status.Flag.ofBit? b.val else none with
  | some flag => flag.shortName
  | none      => BitNumber.text b

/-- Operands with a comma between them; nothing for an instruction without any. -/
def text : Operand → String
  | noOperands             => ""
  | file r                 => r.text
  | fileAndDestination r d => r.text ++ ", " ++ d.text
  | fileAndBit r b         => r.text ++ ", " ++ bitText r b
  | literal v              => hexText 2 v.toNat
  | goto a                 => Address.text a
  | tris s                 => s.text

end Operand

end PicBaseline
