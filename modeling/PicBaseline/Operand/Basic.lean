import PicBaseline.Text.Basic
import PicBaseline.Word

/-!
# Operands — shapes and values

The low bits of an instruction word hold its operands in one of seven shapes.  A shape is drawn as
a layout with one letter a bit, most significant first: `f` for a register number, `d` for the
destination, `b` for a bit number and `k` for a constant.

Every value is in range by its type: the register file has 24 registers, numbered 0 to 7 and 16 to
31, a bit number is below 8 and a branch address below 512.  The constructors `Register.ofNumber`,
`BitNumber.ofNumber` and `Address.ofNumber` refuse any other number.
-/

namespace PicBaseline

/-! ### Shapes -/

/-- What kinds of operands an instruction has, and in which bits. -/
inductive Shape where
  | noOperands
  | file
  | fileAndDestination
  | fileAndBit
  | literal
  | goto
  | tris
  deriving DecidableEq

namespace Shape

def all : List Shape :=
  [noOperands, file, fileAndDestination, fileAndBit, literal, goto, tris]

/-- The name that the JSON form of a pattern gives the shape. -/
def name : Shape → String
  | noOperands         => "NoOperands"
  | file               => "File"
  | fileAndDestination => "FileAndDestination"
  | fileAndBit         => "FileAndBitNumber"
  | literal            => "Literal"
  | goto               => "Goto"
  | tris               => "Tris"

/-- The operand bits, one letter each, most significant first. -/
def layout : Shape → String
  | noOperands         => ""
  | file               => "fffff"
  | fileAndDestination => "dfffff"
  | fileAndBit         => "bbbfffff"
  | literal            => "kkkkkkkk"
  | goto               => "kkkkkkkkk"
  | tris               => "fff"

/-- The number of operand bits. -/
def width (s : Shape) : Nat :=
  s.layout.length

/-- A layout names its shape; no two shapes share one. -/
def ofLayout? (layout : List Char) : Option Shape :=
  all.find? fun s => s.layout.toList == layout

def ofName? (name : String) : Option Shape :=
  all.find? fun s => s.name == name

end Shape

/-! ### Numbers that are no operand -/

/-- Why a number is no operand. -/
inductive OperandError where
  | invalidRegister (number : Nat)
  | invalidTrisSelector (number : Nat)
  | invalidBitNumber (number : Nat)
  | invalidAddress (number : Nat)
  deriving DecidableEq

/-- The message of each refusal; an address shows in hexadecimal. -/
def OperandError.message : OperandError → String
  | .invalidRegister n =>
      "invalid register file number " ++ Text.decimal n ++ "; 8..=15 are reserved"
  | .invalidTrisSelector n =>
      "invalid TRIS operand " ++ Text.decimal n ++ "; expected 6 (GPIO) or 7 (CMCON0)"
  | .invalidBitNumber n =>
      "invalid bit number " ++ Text.decimal n ++ "; expected 0..=7"
  | .invalidAddress n =>
      "invalid branch address 0x" ++ Text.lowerHex 1 n ++ "; expected at most 0x1ff"

/-! ### Registers -/

/-- A register of the register file. -/
structure Register where
  number : Nat
  implemented : number < 8 ∨ 16 ≤ number ∧ number < 32
  deriving DecidableEq

namespace Register

/-- Refuses the numbers 8 to 15, where no register is, and those past the register file. -/
def ofNumber (n : Nat) : Except OperandError Register :=
  if h : n < 8 ∨ 16 ≤ n ∧ n < 32 then .ok ⟨n, h⟩ else .error (.invalidRegister n)

/-- The STATUS register, whose bits have names. -/
def status : Register := ⟨3, by decide⟩

/-- The names of the special function registers. -/
def name? (r : Register) : Option String :=
  ["INDF", "TMR0", "PCL", "STATUS", "FSR", "OSCCAL", "GPIO", "CMCON0"][r.number]?

end Register

/-! ### Bit numbers, addresses, destinations and selectors -/

/-- The position of a bit in a register. -/
abbrev BitNumber := Fin 8

/-- Refuses any number that is no position. -/
def BitNumber.ofNumber (n : Nat) : Except OperandError BitNumber :=
  if h : n < 8 then .ok ⟨n, h⟩ else .error (.invalidBitNumber n)

/-- The highest branch address. -/
def addressMax : Nat := 0x1FF

/-- The target of a branch. -/
abbrev Address := Fin (addressMax + 1)

/-- Refuses any number past the highest address. -/
def Address.ofNumber (n : Nat) : Except OperandError Address :=
  if h : n < addressMax + 1 then .ok ⟨n, h⟩ else .error (.invalidAddress n)

/-- Where an instruction leaves its result. -/
inductive Destination where
  | working
  | file
  deriving DecidableEq

/-- The registers that `tris` can load. -/
inductive TrisSelector where
  | gpio
  | cmcon0
  deriving DecidableEq

def TrisSelector.register : TrisSelector → Register
  | gpio   => ⟨6, by decide⟩
  | cmcon0 => ⟨7, by decide⟩

/-- A selector by the number of its register; any other number is refused. -/
def TrisSelector.ofNumber : Nat → Except OperandError TrisSelector
  | 6 => .ok .gpio
  | 7 => .ok .cmcon0
  | n => .error (.invalidTrisSelector n)

/-! ### Operands -/

/-- The operands of an instruction, by shape. -/
inductive Operand where
  | noOperands
  | file (register : Register)
  | fileAndDestination (register : Register) (destination : Destination)
  | fileAndBit (register : Register) (bit : BitNumber)
  | literal (value : Byte)
  | goto (address : Address)
  | tris (selector : TrisSelector)
  deriving DecidableEq

/-- The shape whose codec the operands go through. -/
def Operand.shape : Operand → Shape
  | noOperands             => .noOperands
  | file _                 => .file
  | fileAndDestination _ _ => .fileAndDestination
  | fileAndBit _ _         => .fileAndBit
  | literal _              => .literal
  | goto _                 => .goto
  | tris _                 => .tris

end PicBaseline
