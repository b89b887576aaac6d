import PicBaseline.Operand.Basic
import PicBaseline.Text.CharLiteral

/-!
# Patterns

A pattern fixes the leading bits of a 12-bit word and leaves the trailing bits to the operands.  It
keeps the opcode in place, with clear operand bits, ones at the bits that the opcode fixes, and the
shape of the operands.

It is written as twelve symbols: the opcode bits as `0` and `1`, then the layout of the operands.
`0001 11df ffff` is an opcode of six bits with a destination and a register.  Blanks may stand
anywhere.  `compile` reads the notation in two passes: opcode bits up to the first layout letter,
then the layout.  `Pattern.text` writes it in three groups of four symbols.
-/

namespace PicBaseline

/-! ### Words of one opcode -/

/-- The words of one opcode. -/
structure Pattern where
  opcode : Word
  /-- Ones at the opcode bits. -/
  mask : Word
  shape : Shape
  deriving DecidableEq

namespace Pattern

/-- Ones at the operand bits. -/
def operandMask (p : Pattern) : Word :=
  ~~~p.mask &&& wordMask

/-- The word carries the opcode, whatever its operand bits and its upper four bits are. -/
def accepts (p : Pattern) (w : Word) : Bool :=
  w &&& wordMask &&& p.mask == p.opcode

/-- The two opcodes agree at every bit that both patterns fix. -/
def overlaps (p q : Pattern) : Bool :=
  p.opcode &&& (p.mask &&& q.mask) == q.opcode &&& (p.mask &&& q.mask)

end Pattern

/-! ### As text -/

/-- Why a text is no pattern. -/
inductive PatternError where
  | unexpectedCharacter (c : Char)
  | missingOpcode
  | opcodeTooLong (length : Nat)
  | unknownShape (layout : String)
  deriving DecidableEq

/-- The messages show the character, the number of bits or the layout that was read. -/
def PatternError.message : PatternError → String
  | unexpectedCharacter c => "unexpected character in pattern: " ++ Text.charLiteral c
  | missingOpcode         => "unexpected end of pattern, expected opcode"
  | opcodeTooLong n       => "opcode must be at most 12 bits long, got " ++ Text.decimal n
  | unknownShape layout   => "invalid operand pattern: \"" ++ layout ++ "\""

namespace Pattern

/-- The letters that layouts are drawn with. -/
def isLayoutLetter (c : Char) : Bool :=
  c == 'b' || c == 'd' || c == 'f' || c == 'k'

def isOpcodeDigit (c : Char) : Bool :=
  c == '0' || c == '1'

/-- The opcode bits in front of the first layout letter, and the text from that letter on. -/
def scanOpcode : List Char → Except PatternError (List Bool × List Char)
  | [] => .ok ([], [])
  | c :: cs =>
      if isOpcodeDigit c then do
        let (bits, rest) ← scanOpcode cs
        return ((c == '1') :: bits, rest)
      else if isLayoutLetter c then .ok ([], c :: cs)
      else if Text.isBlank c then scanOpcode cs
      else .error (.unexpectedCharacter c)

/-- The symbols of the layout.  Digits pass here, though no layout has one. -/
def scanLayout : List Char → Except PatternError (List Char)
  | [] => .ok []
  | c :: cs =>
      if Text.isBlank c then scanLayout cs
      else if isLayoutLetter c || isOpcodeDigit c then do
        let layout ← scanLayout cs
        return c :: layout
      else .error (.unexpectedCharacter c)

/-- The word whose low bits are the given ones, most significant first. -/
def ofBits (bits : List Bool) : Word :=
  bits.foldl (fun w b => (w <<< 1) ||| (BitVec.ofBool b).setWidth 16) 0#16

/-- The pattern that a text writes. -/
def compile (s : String) : Except PatternError Pattern := do
  let (bits, rest) ← scanOpcode s.toList
  if bits.isEmpty then throw .missingOpcode
  if wordBits < bits.length then throw (.opcodeTooLong bits.length)
  let layout ← scanLayout rest
  let operandBits := wordBits - bits.length
  match (Shape.ofLayout? layout).filter fun shape => shape.width == operandBits with
  | some shape =>
      return ⟨ofBits bits <<< operandBits, ((1#16 <<< bits.length) - 1#16) <<< operandBits, shape⟩
  | none => throw (.unknownShape (String.ofList layout))

/-- The twelve symbols of a pattern. -/
def symbols (p : Pattern) : List Char :=
  (List.range (wordBits - p.shape.width)).map
      (fun i => if p.opcode.getLsbD (wordBits - 1 - i) then '1' else '0')
    ++ p.shape.layout.toList

/-- The symbols in three groups of four. -/
def text (p : Pattern) : String :=
  String.ofList
    (p.symbols.take 4 ++ ' ' :: ((p.symbols.drop 4).take 4 ++ ' ' :: p.symbols.drop 8))

end Pattern

end PicBaseline
