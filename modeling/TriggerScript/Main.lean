import TriggerScript.CommandLine

/-!
# The program

Reads the arguments and the environment, runs the command, and prints what it has to say.
-/

namespace TriggerScript.Program

/-- What the program says about its use. -/
def usage : String :=
  "Compiles achievement scripts into trigger definitions\n\n" ++
  "Usage: rascript [OPTIONS] <COMMAND>\n\n" ++
  "Commands:\n" ++
  "  build FILE           Compile a script and print its achievements, leaderboards and rich presence\n" ++
  "  check FILE           Compile a script and report errors only\n" ++
  "  decode DEFINITION    List the conditions of a serialized trigger\n" ++
  "  help                 Print help\n\n" ++
  "Options:\n" ++
  "      --config CONFIG  Path to config file\n" ++
  "  -j, --json           Output in JSON format\n" ++
  "  -h, --help           Print help\n" ++
  "  -V, --version        Print version\n"

/-- What the program says about its version. -/
def version : String :=
  "rascript 0.1.0\n"

/-- Why the system could not read a file. -/
def faultOfSystem : IO.Error → FileFault
  | .noFileOrDirectory .. => .missing
  | .inappropriateType _ code details => ofCode code details
  | error => .other (toString error)
where
  /-- The fault with a number of the system, which may be given with a minus sign. -/
  ofCode (code : UInt32) (details : String) : FileFault :=
    if code = 20 ∨ code = -20 then .notDirectory
    else if code = 21 ∨ code = -21 then .isDirectory
    else .other details

/-- Reads a file as text. -/
def readText (path : String) : IO (Except FileFault String) := do
  try
    match String.fromUTF8? (← IO.FS.readBinFile path) with
    | some text => return .ok text
    | none => return .error .notText
  catch error =>
    return .error (faultOfSystem error)

/-- The settings file that is used if none is asked for. -/
def usualSettings? : IO (Option String) := do
  if let some path ← IO.getEnv "RASCRIPT_CONFIG" then
    return some path
  let base? ← IO.getEnv "XDG_CONFIG_HOME"
  let home? ← IO.getEnv "HOME"
  let folder? := (base?.filter (·.startsWith "/")).or ((home?.filter (!·.isEmpty)).map (· ++ "/.config"))
  return folder?.map (· ++ "/rascript/config.json")

/-- Says why there is no command to run, and ends. -/
def endUsage (fault : UsageFault) : IO UInt32 := do
  if fault.isRequest then
    IO.print (if fault = .version then version else usage)
    return 0
  else
    IO.eprint (if fault.message.isEmpty then usage else "error: " ++ fault.message ++ "\n\n" ++ usage)
    return 2

/-- Says why a command could not do its work, and ends. -/
def endFault (fault : CommandFault) : IO UInt32 := do
  IO.eprintln ("Error: " ++ fault.headline)
  if let some reason := fault.reason? then
    IO.eprint ("\nCaused by:\n    " ++ reason ++ "\n")
  return 1

/-- Prints what a command has to say, and ends. -/
def endResult (result : CommandResult) : IO UInt32 := do
  IO.print result.out
  IO.eprint result.err
  return if result.success then 0 else 1

/-- Runs the program. -/
def run (args : List String) : IO UInt32 := do
  match Invocation.parse args with
  | .error fault => endUsage fault
  | .ok invocation =>
    match ← CommandLine.run readText (← usualSettings?) invocation with
    | .error fault => endFault fault
    | .ok result => endResult result

end TriggerScript.Program

/-- The entry of the program. -/
def main (args : List String) : IO UInt32 :=
  TriggerScript.Program.run args
