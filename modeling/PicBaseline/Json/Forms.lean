import PicBaseline.IntelHex
import PicBaseline.Json.Basic
import PicBaseline.Program.Basic

/-!
# JSON — forms of the types

Registers, bit numbers and addresses are plain integers, a destination or a selector is a name, and
operands and HEX records are tagged values.  Reading goes through the checked constructors, so it
yields valid values only.  Opcodes, instructions and programs are written only.

The members of a payload are read in the order of their names, and the first that cannot be read
decides the error; only then is a missing member noticed.  Members of any other name do not
matter.
-/

namespace PicBaseline

/-- Why a JSON value does not have the form of a type. -/
inductive FormError where
  | malformed
  | refused (cause : OperandError)
  deriving DecidableEq

namespace Json

/-- A natural number below a bound. -/
def readNat (bound : Nat) (j : Json) : Except FormError Nat :=
  match j.natBelow? bound with
  | some n => .ok n
  | none   => .error .malformed

/-- A number below a bound that a checked constructor takes. -/
def readChecked {α : Type} (bound : Nat) (make : Nat → Except OperandError α) (j : Json) :
    Except FormError α := do
  let n ← readNat bound j
  (make n).mapError .refused

def readByte (j : Json) : Except FormError Byte := do
  let n ← readNat 256 j
  return BitVec.ofNat 8 n

def readWord (j : Json) : Except FormError Word := do
  let n ← readNat 65536 j
  return BitVec.ofNat 16 n

/-- An array of numbers below 256. -/
def readBytes : Json → Except FormError (List Byte)
  | arr items => items.mapM readByte
  | _         => .error .malformed

/-- The value of a member, if there is one of that name. -/
def readMember {α : Type} (name : String) (read : Json → Except FormError α)
    (members : List (String × Json)) : Except FormError (Option α) :=
  match members.lookup name with
  | some j => (read j).map some
  | none   => .ok none

/-- A member that must be there. -/
def require {α : Type} : Option α → Except FormError α
  | some a => .ok a
  | none   => .error .malformed

end Json

open Json (readByte readBytes readChecked readMember readWord require tagged)

/-! ### Numbers and names -/

/-- A number of one byte that is a register. -/
def Register.ofJson : Json → Except FormError Register :=
  readChecked 256 Register.ofNumber

def Register.toJson (r : Register) : Json :=
  .nat r.number

/-- A number of one byte that is a position. -/
def BitNumber.ofJson : Json → Except FormError BitNumber :=
  readChecked 256 BitNumber.ofNumber

def BitNumber.toJson (b : BitNumber) : Json :=
  .nat b.val

/-- A number of two bytes that is a branch address. -/
def Address.ofJson : Json → Except FormError Address :=
  readChecked 65536 Address.ofNumber

def Address.toJson (a : Address) : Json :=
  .nat a.val

/-- The name of a destination, alone or with a `null` payload. -/
def Destination.ofJson (j : Json) : Except FormError Destination :=
  match j.tagged? with
  | some ("Working", .null) => .ok .working
  | some ("File", .null)    => .ok .file
  | _                       => .error .malformed

def Destination.toJson : Destination → Json
  | working => .str "Working"
  | file    => .str "File"

/-- The name of a selector, alone or with a `null` payload. -/
def TrisSelector.ofJson (j : Json) : Except FormError TrisSelector :=
  match j.tagged? with
  | some ("Gpio", .null)   => .ok .gpio
  | some ("Cmcon0", .null) => .ok .cmcon0
  | _                      => .error .malformed

def TrisSelector.toJson : TrisSelector → Json
  | gpio   => .str "Gpio"
  | cmcon0 => .str "Cmcon0"

/-- A string in set notation. -/
def Status.Flags.ofJson : Json → Except FormError Status.Flags
  | .str s => (Status.Flags.ofSetText? s).elim (.error .malformed) .ok
  | _      => .error .malformed

/-- The set notation as a string. -/
def Status.Flags.toJson (s : Status.Flags) : Json :=
  .str s.setText

/-! ### Operands -/

namespace Operand

/-- Operands by the tag of their shape. -/
def ofJson (j : Json) : Except FormError Operand :=
  match j.tagged? with
  | some ("NoOperands", .null) => .ok noOperands
  | some ("File", .obj ms) => do
      let r ← readMember "register" Register.ofJson ms
      return file (← require r)
  | some ("FileAndDestination", .obj ms) => do
      let d ← readMember "destination" Destination.ofJson ms
      let r ← readMember "register" Register.ofJson ms
      return fileAndDestination (← require r) (← require d)
  | some ("FileAndBitNumber", .obj ms) => do
      let b ← readMember "bit" BitNumber.ofJson ms
      let r ← readMember "register" Register.ofJson ms
      return fileAndBit (← require r) (← require b)
  | some ("Literal", .obj ms) => do
      let v ← readMember "value" readByte ms
      return literal (← require v)
  | some ("Goto", .obj ms) => do
      let a ← readMember "address" Address.ofJson ms
      return goto (← require a)
  | some ("Tris", .obj ms) => do
      let s ← readMember "selector" TrisSelector.ofJson ms
      return tris (← require s)
  | _ => .error .malformed

/-- The tag of the shape, and the values by name. -/
def toJson : Operand → Json
  | noOperands             => .str "NoOperands"
  | file r                 => tagged "File" (.obj [("register", r.toJson)])
  | fileAndDestination r d =>
      tagged "FileAndDestination" (.obj [("register", r.toJson), ("destination", d.toJson)])
  | fileAndBit r b         =>
      tagged "FileAndBitNumber" (.obj [("register", r.toJson), ("bit", BitNumber.toJson b)])
  | literal v              => tagged "Literal" (.obj [("value", .nat v.toNat)])
  | goto a                 => tagged "Goto" (.obj [("address", Address.toJson a)])
  | tris s                 => tagged "Tris" (.obj [("selector", s.toJson)])

end Operand

/-! ### HEX records -/

namespace HexRecord

/-- A record by the tag of its kind; only data and the upper address carry a payload. -/
def ofJson (j : Json) : Except FormError HexRecord :=
  match j.tagged? with
  | some ("Data", .obj ms) => do
      let address ← readMember "address" readWord ms
      let bytes ← readMember "bytes" readBytes ms
      return data (← require address) (← require bytes)
  | some ("EndOfFile", .null)              => .ok endOfFile
  | some ("ExtendedLinearAddress", u)      => (readWord u).map extendedLinearAddress
  | some ("StartSegmentAddress", .null)    => .ok startSegmentAddress
  | some ("ExtendedSegmentAddress", .null) => .ok extendedSegmentAddress
  | some ("StartLinearAddress", .null)     => .ok startLinearAddress
  | _                                      => .error .malformed

/-- The tag of the kind, with the payload if it has one. -/
def toJson : HexRecord → Json
  | data address bytes      =>
      tagged "Data"
        (.obj [("address", .nat address.toNat), ("bytes", .arr (bytes.map (.nat ·.toNat)))])
  | endOfFile               => .str "EndOfFile"
  | extendedLinearAddress u => tagged "ExtendedLinearAddress" (.nat u.toNat)
  | startSegmentAddress     => .str "StartSegmentAddress"
  | extendedSegmentAddress  => .str "ExtendedSegmentAddress"
  | startLinearAddress      => .str "StartLinearAddress"

end HexRecord

/-! ### Opcodes and programs -/

/-- The two words as numbers, and the name of the shape. -/
def Pattern.toJson (p : Pattern) : Json :=
  .obj [("opcode", .nat p.opcode.toNat), ("mask", .nat p.mask.toNat), ("shape", .str p.shape.name)]

/-- An entry of the instruction set with all it says. -/
def Opcode.toJson (op : Opcode) : Json :=
  .obj [("name", .str op.name), ("bit_pattern", op.pattern.toJson), ("cycles", .nat op.cycles),
    ("status", op.status.toJson)]

/-- The mnemonic stands for the opcode. -/
def Instruction.toJson (i : Instruction) : Json :=
  .obj [("name", .str i.opcode.name), ("operands", i.operands.toJson)]

def Statement.toJson (s : Statement) : Json :=
  .obj [("address", .nat s.address.toNat), ("instruction", s.instruction.toJson)]

/-- A record of a program, tagged by its kind. -/
def Record.toJson : Record → Json
  | config w    => Json.tagged "Config" (.nat w.toNat)
  | statement s => Json.tagged "Statement" s.toJson

/-- The records of a program in their order. -/
def Program.toJson (p : Program) : Json :=
  .obj [("records", .arr (p.records.map Record.toJson))]

end PicBaseline
