import PicBaseline.Pattern
import PicBaseline.Status

/-!
# The instruction set

The 33 opcodes of the baseline core, each with its pattern, its cycles and the status flags it
affects.  Where several patterns accept a word the first entry of the table has it: `nop`,
`option`, `sleep` and `clrwdt` stand in front of `tris`, whose pattern accepts their words too.
-/

namespace PicBaseline

/-- An entry of the instruction set. -/
structure Opcode where
  name : String
  pattern : Pattern
  cycles : Nat
  status : Status.Flags
  deriving DecidableEq

namespace Opcode

/-- The pattern that a well-formed text writes. -/
def patternOf (s : String) (h : (Pattern.compile s).toOption.isSome := by decide +kernel) :
    Pattern :=
  (Pattern.compile s).toOption.get h

/-- The instruction set, in order of precedence. -/
def table : List Opcode :=
  [⟨"addwf",  patternOf "0001 11df ffff", 1, .ofList [.carry, .digitCarry, .zero]⟩,
   ⟨"andwf",  patternOf "0001 01df ffff", 1, .ofList [.zero]⟩,
   ⟨"clrf",   patternOf "0000 011f ffff", 1, .ofList [.zero]⟩,
   ⟨"clrw",   patternOf "0000 0100 0000", 1, .ofList [.zero]⟩,
   ⟨"comf",   patternOf "0010 01df ffff", 1, .ofList [.zero]⟩,
   ⟨"decf",   patternOf "0000 11df ffff", 1, .ofList [.zero]⟩,
   ⟨"decfsz", patternOf "0010 11df ffff", 1, .empty⟩,
   ⟨"incf",   patternOf "0010 10df ffff", 1, .ofList [.zero]⟩,
   ⟨"incfsz", patternOf "0011 11df ffff", 1, .empty⟩,
   ⟨"iorwf",  patternOf "0001 00df ffff", 1, .ofList [.zero]⟩,
   ⟨"movf",   patternOf "0010 00df ffff", 1, .ofList [.zero]⟩,
   ⟨"movwf",  patternOf "0000 001f ffff", 1, .empty⟩,
   ⟨"nop",    patternOf "0000 0000 0000", 1, .empty⟩,
   ⟨"rlf",    patternOf "0011 01df ffff", 1, .ofList [.carry]⟩,
   ⟨"rrf",    patternOf "0011 00df ffff", 1, .ofList [.carry]⟩,
   ⟨"subwf",  patternOf "0000 10df ffff", 1, .ofList [.carry, .digitCarry, .zero]⟩,
   ⟨"swapf",  patternOf "0011 10df ffff", 1, .empty⟩,
   ⟨"xorwf",  patternOf "0001 10df ffff", 1, .ofList [.zero]⟩,
   ⟨"bcf",    patternOf "0100 bbbf ffff", 1, .empty⟩,
   ⟨"bsf",    patternOf "0101 bbbf ffff", 1, .empty⟩,
   ⟨"btfsc",  patternOf "0110 bbbf ffff", 1, .empty⟩,
   ⟨"btfss",  patternOf "0111 bbbf ffff", 1, .empty⟩,
   ⟨"andlw",  patternOf "1110 kkkk kkkk", 1, .ofList [.zero]⟩,
   ⟨"call",   patternOf "1001 kkkk kkkk", 2, .empty⟩,
   ⟨"clrwdt", patternOf "0000 0000 0100", 1, .ofList [.notTimeOut, .notPowerDown]⟩,
   ⟨"goto",   patternOf "101k kkkk kkkk", 2, .empty⟩,
   ⟨"iorlw",  patternOf "1101 kkkk kkkk", 1, .ofList [.zero]⟩,
   ⟨"movlw",  patternOf "1100 kkkk kkkk", 1, .empty⟩,
   ⟨"option", patternOf "0000 0000 0010", 1, .empty⟩,
   ⟨"retlw",  patternOf "1000 kkkk kkkk", 2, .empty⟩,
   ⟨"sleep",  patternOf "0000 0000 0011", 1, .ofList [.notTimeOut, .notPowerDown]⟩,
   ⟨"tris",   patternOf "0000 0000 0fff", 1, .empty⟩,
   ⟨"xorlw",  patternOf "1111 kkkk kkkk", 1, .ofList [.zero]⟩]

/-- The first entry of a table whose pattern accepts the word. -/
def lookup (entries : List Opcode) (w : Word) : Option Opcode :=
  entries.find? fun op => op.pattern.accepts w

/-- The opcode of a word, by its low twelve bits. -/
def matching (w : Word) : Option Opcode :=
  lookup table (w &&& wordMask)

/-- The opcode of a mnemonic, which is in lower case. -/
def byName? (name : String) : Option Opcode :=
  table.find? fun op => op.name == name

end Opcode

end PicBaseline
