import TriggerScript.Exec
import TriggerScript.Header
import TriggerScript.Settings
import TriggerScript.Stmt.Parser

/-!
# Scripts

A script is read, its statements run in a global scope, and its header is taken in. The result is everything it registered,
or the error that ended it; the journal tells what happened in both cases.
-/

namespace TriggerScript

/-- How functions are called from a scope under given settings. -/
def Settings.caller (settings : Settings) (scope : Scope) : Caller :=
  { badge := settings.defaultBadge
    call := Function.callWithin settings.defaultBadge (settings.maxCallDepth - scope.depth) }

namespace Scope

/-- The environment of a scope under given settings. -/
def envUnder (settings : Settings) (scope : Scope) : Env :=
  scope.env (settings.caller scope)

/-- The value of an expression in a scope. -/
def evaluate (settings : Settings) (scope : Scope) (e : Expr) : Eval Expr :=
  e.evaluate (scope.envUnder settings)

/-- An expression with its names resolved in a scope. -/
def replace (settings : Settings) (scope : Scope) (e : Expr) : Eval Expr :=
  e.replace (scope.envUnder settings)

/-- Whether a condition is true in a scope. -/
def isTrue (settings : Settings) (scope : Scope) (e : Expr) : Eval Bool :=
  e.isTrue (scope.envUnder settings)

/-- The names that a definition reads and that mean nothing in a scope yet. -/
def unresolvedNames (scope : Scope) (function : Function) : List String :=
  let read := (Stmt.define function.name function.parameters function.body function.span).dependencies
  (nameSet read).filter fun name =>
    name != function.name && (scope.find? name).isNone && (scope.function? name).isNone && !Builtin.isName name

end Scope

namespace Script

/-- Defines a function of the script. -/
def define (function : Function) : Exec Unit := do
  let scope ← Exec.scope
  if Builtin.isName function.name then
    Run.fail (.evaluation (.builtinRedefined function.name) function.span)
  else if (scope.function? function.name).isSome then
    Run.fail (.evaluation (.duplicateFunction function.name) function.span)
  else
    let unresolved := scope.unresolvedNames function
    if !unresolved.isEmpty then
      Exec.eval fun _ => Eval.record (.unresolvedNames function.name unresolved)
    Exec.changeScope (·.define function)

/-- Runs a statement of the script, with the environments of scopes given. -/
def runStatement (envOf : Scope → Env) : Stmt → Exec Unit
  | .define name parameters body span => define { name, parameters, body, span }
  | s => do
    match ← s.exec envOf with
    | some value => Run.fail (.evaluation .returnOutside value.span)
    | none => pure ()

/-- Runs the statements of the script one after the other. -/
def runStatements (envOf : Scope → Env) : List Stmt → Exec Unit
  | [] => pure ()
  | s :: ss => do
    runStatement envOf s
    runStatements envOf ss

/-- Refuses rich presence lines with conditions where none is left for the other cases. -/
def checkPresence : Eval Unit := do
  let output ← Run.get
  if !output.presence.conditionals.isEmpty && output.presence.display?.isNone then
    Run.fail (.evaluation .noDefaultDisplay {})

/-- Runs a whole script. -/
def run (settings : Settings) (statements : List Stmt) : Eval Unit := do
  fun output =>
    let (result, activation) := runStatements (Scope.envUnder settings) statements { scope := .global, output }
    (result, activation.output)
  checkPresence
  let output ← Run.get
  Eval.record (.finished output.achievements.size output.leaderboards.size)

/-- Reads and runs a script, and takes in its header. -/
def compile (settings : Settings) (source : String) : Eval Unit := do
  run settings (← parseScript source)
  Run.modify (Header.read source)

end Script

/-- Everything that a script registers. -/
def compile (settings : Settings) (source : String) : Except Error Output :=
  match Script.compile settings source {} with
  | (.ok _, output) => .ok output
  | (.error error, _) => .error error

end TriggerScript
