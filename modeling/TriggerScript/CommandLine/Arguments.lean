/-!
# Arguments of the command line

A command with its operand, and two options that may stand before or behind the command. A long option takes its value from
the next argument or behind an equals sign; behind two dashes there are only operands.

An option that waits for its value, and an operand, count as given only when the next one comes or the arguments end. This
decides which of two faults is reported.
-/

namespace TriggerScript

/-- Why arguments cannot be understood, or what they ask for instead of a command. -/
inductive UsageFault where
  /-- The help is asked for. -/
  | help
  /-- The version is asked for. -/
  | version
  /-- There is nothing at all. -/
  | nothing
  /-- There are options but no command. -/
  | missingCommand
  /-- There is no such command. -/
  | unknownCommand
  /-- A command lacks its operand. -/
  | missingOperand
  /-- There is no such option, or an operand too many. -/
  | unknownArgument
  /-- An option is given twice. -/
  | repeated
  /-- A value is missing or empty. -/
  | invalidValue
  /-- An option that takes no value has one. -/
  | unneededValue
  deriving DecidableEq, Repr

/-- What is said of arguments that cannot be understood. -/
def UsageFault.message : UsageFault → String
  | .help | .version | .nothing => ""
  | .missingCommand => "a command is required"
  | .unknownCommand => "unrecognized command"
  | .missingOperand => "a required argument was not provided"
  | .unknownArgument => "unexpected argument"
  | .repeated => "an option cannot be used multiple times"
  | .invalidValue => "a value is required"
  | .unneededValue => "unexpected value for an option"

/-- Whether arguments ask for something that is no mistake. -/
def UsageFault.isRequest : UsageFault → Bool
  | .help | .version => true
  | _ => false

/-- The words for commands. -/
inductive CommandWord where
  | build
  | check
  | decode
  deriving DecidableEq, Repr

/-- The command with a name. -/
def CommandWord.ofName? : String → Option CommandWord
  | "build" => some .build
  | "check" => some .check
  | "decode" => some .decode
  | _ => none

/-- Whether the operand of a command is a path, which cannot be empty. -/
def CommandWord.takesPath : CommandWord → Bool
  | .build | .check => true
  | .decode => false

/-- What is to be done. -/
inductive Command where
  /-- Compile a script and show what it registers. -/
  | build (path : String)
  /-- Compile a script and show only errors. -/
  | check (path : String)
  /-- List the conditions of a trigger in the wire format. -/
  | decode (definition : String)
  deriving DecidableEq, Repr

/-- A command with its operand. -/
def CommandWord.withOperand : CommandWord → String → Command
  | .build => .build
  | .check => .check
  | .decode => .decode

/-- A command and its options. -/
structure Invocation where
  /-- The settings file that is asked for. -/
  settingsPath? : Option String := none
  /-- Whether the output is JSON. -/
  json : Bool := false
  /-- What is to be done. -/
  command : Command
  deriving DecidableEq, Repr

/-- What has been read but does not count as given yet. -/
inductive PendingArgument where
  /-- The option for the settings file, with its value if that has come. -/
  | settings (value? : Option String)
  /-- An operand. -/
  | operand (text : String)
  deriving DecidableEq, Repr

/-- The arguments before a command, or behind it, as far as they have been read. -/
structure ArgumentScan where
  /-- The command, behind it. -/
  word? : Option CommandWord := none
  /-- The settings file. -/
  settingsPath? : Option String := none
  /-- Whether the output is JSON. -/
  json : Bool := false
  /-- The operand. -/
  operand? : Option String := none
  /-- What does not count as given yet. -/
  pending? : Option PendingArgument := none
  deriving DecidableEq, Repr

namespace ArgumentScan

/-- Lets what is pending count as given. -/
def settle (scan : ArgumentScan) : Except UsageFault ArgumentScan :=
  match scan.pending? with
  | none => .ok scan
  | some (.settings none) => .error .invalidValue
  | some (.settings (some path)) =>
    if scan.settingsPath?.isSome then .error .repeated
    else if path.isEmpty then .error .invalidValue
    else .ok { scan with settingsPath? := some path, pending? := none }
  | some (.operand text) =>
    if text.isEmpty && scan.word?.any CommandWord.takesPath then .error .invalidValue
    else .ok { scan with operand? := some text, pending? := none }

/-- Whether an option waits for its value. -/
def isWaiting (scan : ArgumentScan) : Bool :=
  scan.pending? = some (.settings none)

/-- Whether an operand has been read. -/
def hasOperand (scan : ArgumentScan) : Bool :=
  match scan.pending? with
  | some (.operand _) => true
  | _ => scan.operand?.isSome

/-- Reads the option for JSON. -/
def readJson (scan : ArgumentScan) : Except UsageFault ArgumentScan := do
  let scan ← scan.settle
  if scan.json then .error .repeated else return { scan with json := true }

/-- Ends with what is asked for instead of a command. -/
def ask (fault : UsageFault) (scan : ArgumentScan) : Except UsageFault ArgumentScan := do
  let _ ← scan.settle
  .error fault

/-- Reads a long option that takes no value. -/
def readSwitch (value? : Option String) (read : Except UsageFault ArgumentScan) : Except UsageFault ArgumentScan :=
  if value?.isSome then .error .unneededValue else read

/-- Reads a long option by its name and the value behind its equals sign. Only the front of the arguments has a version. -/
def readLong (name : String) (value? : Option String) (scan : ArgumentScan) : Except UsageFault ArgumentScan :=
  match name with
  | "config" => do
    let scan ← scan.settle
    let waiting := { scan with pending? := some (.settings value?) }
    if value?.isSome then waiting.settle else return waiting
  | "json" => readSwitch value? scan.readJson
  | "help" => readSwitch value? (scan.ask .help)
  | "version" => if scan.word?.isNone then readSwitch value? (scan.ask .version) else .error .unknownArgument
  | _ => .error .unknownArgument

/-- Reads the letters of short options. -/
def readShort : List Char → ArgumentScan → Except UsageFault ArgumentScan
  | [], scan => .ok scan
  | 'j' :: letters, scan => do readShort letters (← scan.readJson)
  | 'h' :: _, scan => scan.ask .help
  | 'V' :: _, scan => if scan.word?.isNone then scan.ask .version else .error .unknownArgument
  | _, _ => .error .unknownArgument

/-- Reads an argument that is no option. Before the command it can only be a command, which two dashes hide. -/
def readOperand (afterDashes : Bool) (text : String) (scan : ArgumentScan) : Except UsageFault ArgumentScan :=
  match scan.word? with
  | none =>
    if afterDashes && (text = "help" || (CommandWord.ofName? text).isSome) then .error .unknownArgument
    else .error .unknownCommand
  | some _ =>
    if scan.hasOperand then .error .unknownArgument
    else do return { ← scan.settle with pending? := some (.operand text) }

/-- Reads an argument before any two dashes. -/
def readArgument (arg : String) (scan : ArgumentScan) : Except UsageFault ArgumentScan :=
  match arg.toList with
  | '-' :: '-' :: option =>
    let name := option.takeWhile (· ≠ '=')
    let value? := (option.drop name.length).head?.map fun _ => String.ofList (option.drop (name.length + 1))
    scan.readLong (String.ofList name) value?
  | '-' :: letter :: letters => readShort (letter :: letters) scan
  | _ =>
    if scan.isWaiting then .ok { scan with pending? := some (.settings (some arg)) }
    else scan.readOperand false arg

/-- Reads the arguments behind two dashes. -/
def readOperands (args : List String) (scan : ArgumentScan) : Except UsageFault ArgumentScan :=
  args.foldlM (fun scan arg => scan.readOperand true arg) scan

/-- Reads arguments up to the end. -/
def readAll : List String → ArgumentScan → Except UsageFault ArgumentScan
  | [], scan => .ok scan
  | "--" :: args, scan => scan.readOperands args
  | arg :: args, scan => do readAll args (← scan.readArgument arg)

end ArgumentScan

namespace Invocation

/-- What a command for help asks for: one command at most. -/
def helpFault : List String → UsageFault
  | [] => .help
  | [name] => if name = "help" || (CommandWord.ofName? name).isSome then .help else .unknownCommand
  | _ => .unknownCommand

/-- Reads a command and the arguments behind it, given the arguments before it. -/
def ofCommand (front : ArgumentScan) (word : CommandWord) (args : List String) : Except UsageFault Invocation := do
  let back ← ArgumentScan.readAll args { word? := some word }
  let back ← back.settle
  match back.operand? with
  | none => .error .missingOperand
  | some operand =>
    let front ← front.settle
    return {
      settingsPath? := back.settingsPath?.or front.settingsPath?
      json := front.json || back.json
      command := word.withOperand operand }

/-- What arguments without a command ask for. -/
def withoutCommand (front : ArgumentScan) : Except UsageFault Invocation := do
  let front ← front.settle
  if front.settingsPath?.isNone && !front.json then .error .nothing else .error .missingCommand

/-- Reads arguments, given those that have been read before a command. -/
def ofArguments (front : ArgumentScan) : List String → Except UsageFault Invocation
  | [] => withoutCommand front
  | "--" :: args => do withoutCommand (← front.readOperands args)
  | arg :: args =>
    if !front.isWaiting && arg = "help" then .error (helpFault args)
    else
      match if front.isWaiting then none else CommandWord.ofName? arg with
      | some word => ofCommand front word args
      | none => do ofArguments (← front.readArgument arg) args

/-- Reads the arguments of the command line. -/
def parse (args : List String) : Except UsageFault Invocation :=
  ofArguments {} args

end Invocation

end TriggerScript
