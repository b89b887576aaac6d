import PicBaseline.CommandLine.Run

/-!
# The program

The command line on the files of the system.
-/

namespace PicBaseline.CommandLine

/-- The code of a system error, which may come negated. -/
def plainCode (code : UInt32) : UInt32 :=
  if code < 0x80000000 then code else 0 - code

/-- A system error as the commands report it. -/
def FileError.ofSystem : IO.Error → FileError
  | .noFileOrDirectory ..       => .notFound
  | .inappropriateType _ code _ => if plainCode code = 21 then .isDirectory else .notDirectory
  | e@(.invalidArgument _ code _) =>
      if plainCode code = 36 then .nameTooLong else .other (toString e)
  | .permissionDenied ..        => .permissionDenied
  | e                           => .other (toString e)

/-- What an action on the system gives, or the error it ends in. -/
def attempt {α : Type} (action : IO α) : IO (Except FileError α) := do
  try
    return .ok (← action)
  catch e => return .error (.ofSystem e)

/-- The files of the system. -/
def systemFiles : FileAccess IO where
  read path := attempt (IO.FS.readBinFile path)
  write path content := attempt (IO.FS.writeBinFile path content)

end PicBaseline.CommandLine

open PicBaseline.CommandLine in
/-- The program: a run, and then its outcome. -/
def main (args : List String) : IO UInt32 := do
  let outcome ← run systemFiles args
  (← IO.getStdout).putStr outcome.stdout
  (← IO.getStderr).putStr outcome.stderr
  return outcome.exit.toUInt32
