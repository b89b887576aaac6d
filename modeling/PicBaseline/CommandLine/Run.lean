import PicBaseline.CommandLine.Files
import PicBaseline.CommandLine.Output
import PicBaseline.Program.Assembly

/-!
# Command line — runs

A run is a function of the arguments, by some access to files.  It loads and renders before it
writes anything, so a run that fails has written nothing and prints nothing but the error.  What
it prints is part of its outcome, and printed at the end.
-/

namespace PicBaseline.CommandLine

/-! ### The demonstration image -/

/-- A program that wakes up on a pin change: 97 instructions and a configuration word. -/
def sampleHex : String :=
  "\n".intercalate
    [":020000040000FA",
     ":1000000025001C0C0200080C06006306590AE306D2",
     ":100010000A0A0E0A3006590A3005110A3006200A6B",
     ":10002000590A050C3400000C3500000C3600000C99",
     ":100030003700200A66000A0C3309070C260003006B",
     ":10004000060C26000A0C33090400040C26000A0CD6",
     ":1000500033090400000C26000A0C33090400070CC5",
     ":1000600026000400030033000D0C32007100F10281",
     ":10007000370AF202370AF302340A0008140C24008B",
     ":10008000010CA0000306460AA402410A4B09FF0E18",
     ":100090004307570A0300140C2400040C3C00010C15",
     ":1000A000200243070008A402FC02500A01083004A1",
     ":0C00B000590A000C3000070C2600030069",
     ":0400BC000008000830",
     ":0201FE00FF0FF1",
     ":021FFE00EF0FE3",
     ":00000001FF"]

/-! ### Failures -/

/-- Why a command fails. -/
inductive Failure where
  | reading (path : String) (cause : FileError)
  | disassembling (path : String) (cause : ImageError)
  | sample (cause : ImageError)
  | writing (cause : FileError)
  deriving DecidableEq

namespace Failure

/-- The messages from the failure down to its innermost cause. -/
def chain : Failure → List String
  | reading path cause       => ["reading " ++ path, cause.message]
  | disassembling path cause => ("disassembling " ++ path) :: cause.chain
  | sample cause             => cause.chain
  | writing cause            => [cause.message]

/-- A cause under its number. -/
def numberedLine (cause : String) (n : Nat) : String :=
  "\n" ++ String.ofList ((Text.decimal n).toList.leftpad 5 ' ') ++ ": " ++ cause

/-- The causes of an error: none, one on a line of its own, or several with numbers. -/
def causesText : List String → String
  | []      => ""
  | [cause] => "\n\nCaused by:\n    " ++ cause
  | causes  => "\n\nCaused by:" ++ String.join (causes.zipIdx.map fun (c, n) => numberedLine c n)

/-- The text that a run prints about its failure. -/
def report (f : Failure) : String :=
  match f.chain with
  | []              => "Error: \n"
  | outer :: causes => "Error: " ++ outer ++ causesText causes ++ "\n"

end Failure

/-! ### Runs -/

variable {m : Type → Type} [Monad m]

/-- The program of a source. -/
def Source.load (files : FileAccess m) : Source → m (Except Failure Program)
  | sample    => return (Program.ofHex sampleHex).mapError .sample
  | file path => do
      match ← files.readText path with
      | .error e => return .error (.reading path e)
      | .ok text => return (Program.ofHex text).mapError (.disassembling path)

namespace Command

/-- The output of a command. -/
def output (files : FileAccess m) : Command → m (Except Failure String)
  | version                     => return .ok versionText
  | help topic                  => return .ok topic.text
  | opcodes format              => return .ok (renderOpcodes format)
  | disassemble source format _ => do
      let program ← source.load files
      return program.map (renderProgram · format)

/-- The file that the output goes to, if it is not printed. -/
def target? : Command → Option String
  | disassemble _ _ out => out
  | _                   => none

end Command

/-- What a run comes to, apart from the files. -/
structure Outcome where
  exit : Nat
  stdout : String
  stderr : String
  deriving DecidableEq

/-- The outcome of a run that fails. -/
def Failure.outcome (f : Failure) : Outcome :=
  ⟨1, "", f.report⟩

/-- The run of a command. -/
def Command.run (files : FileAccess m) (command : Command) : m Outcome := do
  match ← command.output files with
  | .error failure => return failure.outcome
  | .ok text =>
      match command.target? with
      | none      => return ⟨0, text, ""⟩
      | some path =>
          match ← files.write path text.toUTF8 with
          | .error e => return (Failure.writing e).outcome
          | .ok ()   => return ⟨0, "", ""⟩

/-- The run of the program on its arguments. -/
def run (files : FileAccess m) (args : List String) : m Outcome :=
  match Command.parse args with
  | .error e    => return ⟨2, "", "error: " ++ e.message ++ "\n"⟩
  | .ok command => command.run files

end PicBaseline.CommandLine
