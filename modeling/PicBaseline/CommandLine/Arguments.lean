/-!
# Command line — arguments

The program has two commands.  `disassemble` takes a HEX file or `--sample`, a format and an output
file; `opcodes` takes a format.  Options come in any order, a value follows its option as the next
argument or after an equals sign, and after `--` every argument is a file name.  No option is given
twice, and no name or value is empty.

Help can be asked for in place of a command, by the command `help`, or among the arguments of a
command.  There it takes effect at once: what stands behind it is not looked at, and what stands in
front of it need not be complete.

`scan` turns the arguments of a command into items, `Command.ofItems` checks that they fit
together, and `Command.parse` does both.
-/

namespace PicBaseline.CommandLine

/-- The formats of the output. -/
inductive Format where
  | text
  | json
  deriving DecidableEq

/-- Where the image comes from. -/
inductive Source where
  | file (path : String)
  | sample
  deriving DecidableEq

/-- The commands that take arguments. -/
inductive Verb where
  | disassemble
  | opcodes
  deriving DecidableEq

/-- What help is about: the program, one of its commands, or the command that gives help. -/
inductive HelpTopic where
  | program
  | verb (verb : Verb)
  | help
  deriving DecidableEq

/-- What the program is asked to do. -/
inductive Command where
  | version
  | help (topic : HelpTopic)
  | disassemble (source : Source) (format : Format) (out : Option String)
  | opcodes (format : Format)
  deriving DecidableEq

/-- Why the arguments are no command. -/
inductive UsageError where
  | missingCommand
  | unknownCommand (name : String)
  | unknownOption (option : String)
  | unexpectedArgument (arg : String)
  | unexpectedValue (option : String)
  | missingValue (option : String)
  | repeatedOption (option : String)
  | unknownFormat (value : String)
  | emptyArgument
  | missingInput
  | conflictingInput
  deriving DecidableEq

/-- The message about arguments that are no command. -/
def UsageError.message : UsageError → String
  | missingCommand            => "a command is required: disassemble or opcodes"
  | unknownCommand name       => "unknown command '" ++ name ++ "'"
  | unknownOption option      => "unknown option '" ++ option ++ "'"
  | unexpectedArgument arg    => "unexpected argument '" ++ arg ++ "'"
  | unexpectedValue option    => "option '" ++ option ++ "' takes no value"
  | missingValue option       => "option '" ++ option ++ "' needs a value"
  | repeatedOption option     => "option '" ++ option ++ "' is given twice"
  | unknownFormat value       => "unknown format '" ++ value ++ "', expected text or json"
  | emptyArgument             => "an argument is empty"
  | missingInput              => "a HEX file or --sample is required"
  | conflictingInput          => "a HEX file and --sample exclude each other"

/-! ### Items -/

/-- The options. -/
inductive Switch where
  | sample
  | format
  | out
  deriving DecidableEq

/-- The spelling of an option. -/
def Switch.name : Switch → String
  | sample => "--sample"
  | format => "--format"
  | out    => "--out"

/-- The options of a command. -/
def Verb.switches : Verb → List Switch
  | disassemble => [.sample, .format, .out]
  | opcodes     => [.format]

/-- The name of a command. -/
def Verb.name : Verb → String
  | disassemble => "disassemble"
  | opcodes     => "opcodes"

/-- The command of a name. -/
def Verb.ofName? (name : String) : Option Verb :=
  [disassemble, opcodes].find? fun v => v.name == name

/-- An argument, or an option with its value. -/
inductive Item where
  | input (path : String)
  | sample
  | format (format : Format)
  | out (path : String)
  | help
  deriving DecidableEq

/-- An argument that is no option. -/
def Item.ofArgument (verb : Verb) (arg : String) : Except UsageError Item :=
  if arg.isEmpty then .error .emptyArgument
  else match verb with
    | .disassemble => .ok (.input arg)
    | .opcodes     => .error (.unexpectedArgument arg)

/-- An option with a value. -/
def Item.ofSwitch (switch : Switch) (value : String) : Except UsageError Item :=
  match switch with
  | .sample => .error (.unexpectedValue switch.name)
  | .format =>
      if value.isEmpty then .error (.missingValue switch.name)
      else if value = "text" then .ok (.format .text)
      else if value = "json" then .ok (.format .json)
      else .error (.unknownFormat value)
  | .out => if value.isEmpty then .error (.missingValue switch.name) else .ok (.out value)

/-- An argument that starts with a dash is an option; a lone dash is not. -/
def isOption (arg : String) : Bool :=
  match arg.toList with
  | '-' :: _ :: _ => true
  | _             => false

/-- The name of an option, and what follows its first equals sign. -/
def splitOption (arg : String) : String × Option String :=
  let (name, rest) := arg.toList.span (· != '=')
  match rest with
  | []         => (arg, none)
  | _ :: value => (String.ofList name, some (String.ofList value))

/-- Letters behind one dash are options one by one, so what follows `h` does not matter. -/
def asksHelp (arg : String) : Bool :=
  match arg.toList with
  | '-' :: 'h' :: _ => true
  | _               => arg == "--help"

/-- The option of a command, by its spelling. -/
def Verb.switch? (verb : Verb) (name : String) : Option Switch :=
  verb.switches.find? fun s => s.name == name

/-- The items of the arguments of a command.  An option may be waiting for its value, which is then
the next argument.  Help ends the scan. -/
def scan (verb : Verb) : Option Switch → List String → Except UsageError (List Item)
  | none, [] => .ok []
  | some switch, [] => .error (.missingValue switch.name)
  | some switch, arg :: rest =>
      if isOption arg then .error (.missingValue switch.name)
      else do
        let item ← Item.ofSwitch switch arg
        return item :: (← scan verb none rest)
  | none, arg :: rest =>
      if arg = "--" then rest.mapM (Item.ofArgument verb)
      else if asksHelp arg then .ok [.help]
      else if isOption arg then
        match verb.switch? (splitOption arg).1, (splitOption arg).2 with
        | none, _             => .error (.unknownOption arg)
        | some switch, some v => do
            let item ← Item.ofSwitch switch v
            return item :: (← scan verb none rest)
        | some .sample, none  => do
            return .sample :: (← scan verb none rest)
        | some switch, none   => scan verb (some switch) rest
      else do
        let item ← Item.ofArgument verb arg
        return item :: (← scan verb none rest)

/-! ### Commands -/

/-- The only element of a list that has at most one. -/
def atMostOne {α : Type} (surplus : α → UsageError) : List α → Except UsageError (Option α)
  | []          => .ok none
  | [a]         => .ok (some a)
  | _ :: b :: _ => .error (surplus b)

/-- The file name, if the item is one. -/
def Item.input? : Item → Option String
  | input path => some path
  | _          => none

/-- Whether the item asks for the demonstration image. -/
def Item.sample? : Item → Option Unit
  | sample => some ()
  | _      => none

/-- The format, if the item gives one. -/
def Item.format? : Item → Option Format
  | format f => some f
  | _        => none

/-- The output file, if the item gives one. -/
def Item.out? : Item → Option String
  | out path => some path
  | _        => none

namespace Command

/-- The command that the items make up.  Nothing may be given twice; whether the items are complete
matters only where no help is asked for. -/
def ofItems (verb : Verb) (items : List Item) : Except UsageError Command := do
  let input ← atMostOne .unexpectedArgument (items.filterMap Item.input?)
  let sample ← atMostOne (fun _ => .repeatedOption "--sample") (items.filterMap Item.sample?)
  let format ← atMostOne (fun _ => .repeatedOption "--format") (items.filterMap Item.format?)
  let out ← atMostOne (fun _ => .repeatedOption "--out") (items.filterMap Item.out?)
  let format := format.getD .text
  if items.contains .help then return .help (.verb verb)
  match verb, input, sample with
  | .opcodes, _, _                => return .opcodes format
  | .disassemble, some path, none => return .disassemble (.file path) format out
  | .disassemble, none, some _    => return .disassemble .sample format out
  | .disassemble, none, none      => throw .missingInput
  | .disassemble, some _, some _  => throw .conflictingInput

/-- The command of a name with its arguments. -/
def ofVerb (verb : Verb) (args : List String) : Except UsageError Command := do
  ofItems verb (← scan verb none args)

/-- The version is asked for as help is. -/
def asksVersion (arg : String) : Bool :=
  match arg.toList with
  | '-' :: 'V' :: _ => true
  | _               => arg == "--version"

/-- What the command `help` is asked about.  No topic has topics below it. -/
def ofHelp : List String → Except UsageError Command
  | []     => .ok (.help .program)
  | [name] =>
      if name = "help" then .ok (.help .help)
      else match Verb.ofName? name with
        | some verb => .ok (.help (.verb verb))
        | none      => .error (.unknownCommand name)
  | _ :: name :: _ => .error (.unknownCommand name)

/-- The command that the arguments of the program give. -/
def parse : List String → Except UsageError Command
  | []           => .error .missingCommand
  | name :: args =>
      if asksVersion name then .ok .version
      else if asksHelp name then .ok (.help .program)
      else if name = "help" then ofHelp args
      else match Verb.ofName? name with
        | some verb => ofVerb verb args
        | none      => .error (.unknownCommand name)

end Command

end PicBaseline.CommandLine
