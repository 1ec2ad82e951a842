import TriggerScript.CommandLine.Arguments
import TriggerScript.CommandLine.Files
import TriggerScript.Report
import TriggerScript.Script
import TriggerScript.Settings

/-!
# The command line

What a command does, given a way to read files: it ends with texts to print, or with a fault that keeps it from its work. An
error of a script is no such fault; it is printed, and the command has no success.
-/

namespace TriggerScript

/-- Why a command cannot do its work. -/
inductive CommandFault where
  /-- The settings file that was asked for is not there. -/
  | settingsMissing (path : String)
  /-- A settings file cannot be read. -/
  | settingsUnreadable (path : String) (fault : FileFault)
  /-- A settings file is refused. -/
  | settingsRefused (path : String) (fault : SettingsFault)
  /-- A script cannot be read. -/
  | scriptUnreadable (path : String) (fault : FileFault)
  /-- A text is no trigger in the wire format. -/
  | definitionRefused (definition : String) (error : WireError)
  deriving DecidableEq, Repr

namespace CommandFault

/-- What could not be done. -/
def headline : CommandFault → String
  | .settingsMissing path => "config file not found: " ++ path
  | .settingsUnreadable path _ => "Failed to read config file: " ++ path
  | .settingsRefused path _ => "Failed to parse config file: " ++ path
  | .scriptUnreadable path _ => "Reading " ++ path
  | .definitionRefused definition _ => "Decoding " ++ Text.quoted definition

/-- Why it could not be done, where there is more to say. -/
def reason? : CommandFault → Option String
  | .settingsMissing _ => none
  | .settingsUnreadable _ fault | .scriptUnreadable _ fault => some fault.message
  | .settingsRefused _ fault => some fault.message
  | .definitionRefused _ error => some error.message

end CommandFault

/-- How a command ends. -/
structure CommandResult where
  /-- Whether it did what was asked. -/
  success : Bool
  /-- What it prints. -/
  out : String := ""
  /-- What it prints about errors. -/
  err : String := ""
  deriving DecidableEq, Repr

namespace CommandLine

/-- A JSON value as output. -/
def jsonOutput (value : Json) : String :=
  value.render ++ "\n"

/-- The lines about an error of a script. -/
def errorLines (path : String) (error : Error) : List String :=
  s!"{path}:{error.span.line}:{error.span.column}: {error.message}" ::
    error.cause?.toList.map fun cause => "  in: " ++ cause.render

/-- How a command ends at an error of a script. -/
def errorResult (json : Bool) (path : String) (error : Error) : CommandResult :=
  if json then { success := false, out := jsonOutput error.report }
  else { success := false, err := joinLines (errorLines path error) }

/-- What a build prints. -/
def buildOutput (json : Bool) (output : Output) : String :=
  if json then jsonOutput output.report else output.render

/-- What a check prints. -/
def checkOutput (json : Bool) (path : String) : String :=
  if json then jsonOutput (.object [("ok", .boolean true)]) else path ++ ": ok\n"

/-- What decoding a trigger prints. -/
def decodeOutput (json : Bool) (trigger : Trigger) : String :=
  if json then jsonOutput trigger.report else trigger.render

/-- The settings that reading a file gives. A file that nobody asked for may be missing. -/
def settingsOf (isAsked : Bool) (path : String) : Except FileFault String → Except CommandFault Settings
  | .ok text => (Settings.parse text).mapError (.settingsRefused path)
  | .error fault =>
    if fault.isAbsence then if isAsked then .error (.settingsMissing path) else .ok {}
    else .error (.settingsUnreadable path fault)

/-- How a script is compiled for a command that prints something in case of success. -/
def compileText (json : Bool) (path : String) (success : Output → String) (settings : Settings) (source : String) :
    CommandResult :=
  match compile settings source with
  | .ok output => { success := true, out := success output }
  | .error error => errorResult json path error

/-- How a trigger is decoded. -/
def decode (json : Bool) (definition : String) : Except CommandFault CommandResult :=
  match Trigger.ofWire definition with
  | .ok trigger => .ok { success := true, out := decodeOutput json trigger }
  | .error error => .error (.definitionRefused definition error)

variable {m : Type → Type} [Monad m]

/-- Reads the settings: from the file that is asked for, or else from the usual file if there is one. -/
def readSettings (read : String → m (Except FileFault String)) (asked? usual? : Option String) :
    m (Except CommandFault Settings) := do
  match asked?, usual? with
  | some path, _ => return settingsOf true path (← read path)
  | none, some path => return settingsOf false path (← read path)
  | none, none => return .ok {}

/-- Reads the settings and then a script, and compiles it. -/
def compileFile (read : String → m (Except FileFault String)) (usual? : Option String) (invocation : Invocation)
    (path : String) (success : Output → String) : m (Except CommandFault CommandResult) := do
  match ← readSettings read invocation.settingsPath? usual? with
  | .error fault => return .error fault
  | .ok settings =>
    match ← read path with
    | .error fault => return .error (.scriptUnreadable path fault)
    | .ok source => return .ok (compileText invocation.json path success settings source)

/-- Does what an invocation asks for. -/
def run (read : String → m (Except FileFault String)) (usual? : Option String) (invocation : Invocation) :
    m (Except CommandFault CommandResult) :=
  match invocation.command with
  | .build path => compileFile read usual? invocation path (buildOutput invocation.json)
  | .check path => compileFile read usual? invocation path fun _ => checkOutput invocation.json path
  | .decode definition => return decode invocation.json definition

end CommandLine

end TriggerScript
