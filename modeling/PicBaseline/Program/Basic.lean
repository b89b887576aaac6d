import PicBaseline.Instruction

/-!
# Programs

A program is the decoded content of an image, in the order of the image: instructions with their
addresses, and configuration words.  Its listing has a line that counts the instructions and then a
line a record.
-/

namespace PicBaseline

/-- An instruction at a word address. -/
structure Statement where
  address : Byte
  instruction : Instruction
  deriving DecidableEq

/-- What one word of an image comes to. -/
inductive Record where
  | config (word : Word)
  | statement (statement : Statement)
  deriving DecidableEq

def Record.statement? : Record → Option Statement
  | config _    => none
  | statement s => some s

def Record.config? : Record → Option Word
  | config w    => some w
  | statement _ => none

/-- The records of an image, in the order of the image. -/
structure Program where
  records : List Record
  deriving DecidableEq

namespace Program

/-- The instructions with their addresses, in order. -/
def statements (p : Program) : List Statement :=
  p.records.filterMap Record.statement?

def instructions (p : Program) : List Instruction :=
  p.statements.map Statement.instruction

/-- The last configuration word has effect. -/
def configWord? (p : Program) : Option Word :=
  (p.records.filterMap Record.config?).getLast?

end Program

/-! ### Listings -/

/-- The address of an instruction in front of it. -/
def Statement.text (s : Statement) : String :=
  hexText 2 s.address.toNat ++ ": " ++ s.instruction.text

def Record.text : Record → String
  | config w    => "config: " ++ hexText 4 w.toNat
  | statement s => s.text

namespace Program

/-- The line in front of a listing, which does not count configuration words. -/
def text (p : Program) : String :=
  "Program (" ++ Text.decimal p.statements.length ++ " instructions)"

/-- The lines of a program, without a line feed at the end. -/
def listing (p : Program) : String :=
  "\n".intercalate (p.text :: p.records.map Record.text)

end Program

end PicBaseline
