import PicBaseline.CommandLine.Arguments
import PicBaseline.Json.Forms

/-!
# Command line — output

Programs and the opcode table, as text or as JSON, and the texts about the program itself.  Every
output ends in a line feed.
-/

namespace PicBaseline.CommandLine

/-! ### Programs and the opcode table -/

/-- The text followed by spaces up to a width. -/
def padRight (width : Nat) (s : String) : String :=
  s ++ String.ofList (List.replicate (width - s.length) ' ')

/-- The text after spaces up to a width. -/
def padLeft (width : Nat) (s : String) : String :=
  String.ofList (List.replicate (width - s.length) ' ') ++ s

/-- A program in a format. -/
def renderProgram (p : Program) : Format → String
  | .text => p.listing ++ "\n"
  | .json => p.toJson.pretty ++ "\n"

/-- A line of the opcode table. -/
def tableLine (name pattern cycles status : String) : String :=
  padRight 8 name ++ " " ++ padRight 16 pattern ++ " " ++ padLeft 6 cycles ++ "  " ++ status ++ "\n"

/-- The line of an opcode. -/
def opcodeLine (op : Opcode) : String :=
  tableLine op.name op.pattern.text (Text.decimal op.cycles) op.status.text

/-- The opcode table in a format; as text it has a heading. -/
def renderOpcodes : Format → String
  | .text =>
      tableLine "name" "pattern" "cycles" "status" ++ String.join (Opcode.table.map opcodeLine)
  | .json => (Json.arr (Opcode.table.map Opcode.toJson)).pretty ++ "\n"

/-! ### Version and help -/

/-- The name of the program and its version. -/
def versionText : String :=
  "picobello-cli 0.1.0\n"

/-- A heading, and below it entries in two columns of which the first has the given width. -/
def helpSection (title : String) (width : Nat) (entries : List (String × String)) : String :=
  "\n" ++ title ++ ":\n" ++
    String.join (entries.map fun (term, meaning) =>
      "  " ++ padRight width term ++ "  " ++ meaning ++ "\n")

/-- What a command does, in a line. -/
def Verb.about : Verb → String
  | disassemble => "Disassemble an Intel HEX image"
  | opcodes     => "List the opcode table"

/-- What the command `help` does. -/
def helpAbout : String :=
  "Print this message or the help of the given subcommand(s)"

/-- The option for the format, as help lists it. -/
def formatEntry : String × String :=
  ("    --format <FORMAT>",
    "Output format: text or json [default: text] [possible values: text, json]")

/-- The option for help, as help lists it. -/
def helpEntry : String × String :=
  ("-h, --help", "Print help")

/-- The text of help on a topic: what it is about, how it is used, and what can be given. -/
def HelpTopic.text : HelpTopic → String
  | program =>
      "PIC baseline (12-bit) disassembler\n\nUsage: picob <COMMAND>\n" ++
        helpSection "Commands" 11
          [("disassemble", Verb.disassemble.about), ("opcodes", Verb.opcodes.about),
            ("help", helpAbout)] ++
        helpSection "Options" 13 [helpEntry, ("-V, --version", "Print version")]
  | verb .disassemble =>
      Verb.disassemble.about ++ "\n\nUsage: picob disassemble [OPTIONS] [HEXFILE]\n" ++
        helpSection "Arguments" 9 [("[HEXFILE]", "Input HEX path")] ++
        helpSection "Options" 21
          [("    --sample", "Use the built-in demo image instead of a file"), formatEntry,
            ("    --out <FILE>", "Write output to file instead of stdout"), helpEntry]
  | verb .opcodes =>
      Verb.opcodes.about ++ "\n\nUsage: picob opcodes [OPTIONS]\n" ++
        helpSection "Options" 21 [formatEntry, helpEntry]
  | help =>
      helpAbout ++ "\n\nUsage: picob help [COMMAND]...\n" ++
        helpSection "Arguments" 12 [("[COMMAND]...", "Print help for the subcommand(s)")]

end PicBaseline.CommandLine
