import TriggerScript.Eval.Call
import TriggerScript.Names

/-!
# Running statements

A block runs its statements one after the other, until one of them returns a value. Statements change the variables of the
innermost frame and register output, and both stay changed when a later statement fails.
-/

namespace TriggerScript

/-- What a running block changes. -/
structure Activation where
  /-- The names it sees. -/
  scope : Scope
  /-- What has been registered. -/
  output : Output

/-- A run of statements. -/
abbrev Exec := Run Activation

namespace Exec

/-- Evaluates in the scope of the block. -/
def eval {α : Type} (run : Scope → Eval α) : Exec α := fun activation =>
  let (result, output) := run activation.scope activation.output
  (result, { activation with output })

/-- Changes the scope of the block. -/
def changeScope (change : Scope → Scope) : Exec Unit :=
  Run.modify fun activation => { activation with scope := change activation.scope }

/-- The scope of the block. -/
def scope : Exec Scope := do
  return (← Run.get).scope

end Exec

/-- The entries of a dictionary with the value under a key changed, or a new entry behind the others. -/
def changeEntry (key : Expr) (change : Expr → Except Error Expr) (new : Except Error Expr) :
    List (Expr × Expr) → Except Error (List (Expr × Expr))
  | [] => do return [(key, ← new)]
  | (candidate, held) :: rest =>
    if candidate.same key then do return (candidate, ← change held) :: rest
    else do return (candidate, held) :: (← changeEntry key change new rest)

/-- A container with the value under a path of keys changed. All keys but the last have to be there. -/
def storeEntry (name : String) (value : Expr) : List Expr → Expr → Except Error Expr
  | [], _ => .ok value
  | key :: keys, .dictionary mark entries => do
    let new := if keys.isEmpty then .ok value else .error (.evaluation (.noEntry key) key.span)
    return .dictionary mark (← changeEntry key (storeEntry name value keys) new entries)
  | key :: _, container => .error (.evaluation (.notDictionary name container.kindName) key.span)

namespace Exec

/-- Binds a name to an evaluated value, or changes the entry under indices of the dictionary bound to it. -/
def assign (envOf : Scope → Env) (name : String) (indices : List Expr) (value : Expr) : Exec Unit := do
  if indices.isEmpty then
    changeScope (·.assign name value)
  else
    let keys ← eval fun scope => Expr.evaluateAll (envOf scope) indices
    match (← scope).find? name with
    | none => Run.fail (.evaluation (.unknownVariable name) value.span)
    | some container =>
      let changed ← storeEntry name value keys container
      changeScope (·.assign name changed)

/-- Runs a block for items one after the other, with a variable bound to each. -/
def forItems (name : String) (body : Exec (Option Expr)) : List Expr → Exec (Option Expr)
  | [] => pure none
  | item :: items => do
    changeScope (·.assign name item)
    match ← body with
    | some value => return some value
    | none => forItems name body items

/-- Runs a block for items with a variable bound to each; whatever the end, the variable is afterwards bound as before. -/
def forEach (name : String) (items : List Expr) (body : Exec (Option Expr)) : Exec (Option Expr) := do
  let before := (← scope).local? name
  changeScope (·.erase name)
  (forItems name body items).andFinally fun activation =>
    { activation with scope := activation.scope.restore name before }

end Exec

namespace Stmt

mutual

/-- Runs a statement, with the environments of scopes given; a value ends the function it stands in. -/
def exec (envOf : Scope → Env) : Stmt → Exec (Option Expr)
  | .assign name indices value => do
    let value ← Exec.eval fun scope => value.evaluate (envOf scope)
    Exec.assign envOf name indices value
    return none
  | .define _ _ _ span => Run.fail (.evaluation .nestedDefinition span)
  | .loop name collection body => do
    if (blockModifications body).contains name then
      Run.fail (.evaluation (.loopVariableModified name) collection.span)
    else
      let collected ← Exec.eval fun scope => collection.evaluate (envOf scope)
      match collected.items? with
      | none => Run.fail (.causedBy (.notIterable collected.kindName) collection.span collected)
      | some items => Exec.forEach name items (execBlock envOf body)
  | .choose condition yes no => do
    if ← Exec.eval fun scope => condition.isTrue (envOf scope) then execBlock envOf yes
    else execBlock envOf no
  | .expression (.returned _ value) => do
    return some (← Exec.eval fun scope => value.evaluate (envOf scope))
  | .expression (.call mark name args) => do
    let values ← Exec.eval fun scope => Expr.evaluateAll (envOf scope) args
    let _ ← Exec.eval fun scope => (envOf scope).call name values mark.span
    return none
  | .expression e => Run.fail (.causedBy .idleStatement e.span e)

/-- Runs the statements of a block until one of them returns a value. -/
def execBlock (envOf : Scope → Env) : List Stmt → Exec (Option Expr)
  | [] => pure none
  | s :: ss => do
    match ← s.exec envOf with
    | some value => return some value
    | none => execBlock envOf ss

end

end Stmt

namespace Function

/-- Binds parameters to arguments, and those that are left to their defaults as they are written; these are also named, with
the places of their defaults. -/
def bindParameters (function : String) (span : Span) :
    List Parameter → List Expr → Scope → Except Error (Scope × List (String × Span))
  | [], _, scope => .ok (scope, [])
  | parameter :: parameters, value :: values, scope =>
    bindParameters function span parameters values (scope.assign parameter.name value)
  | parameter :: parameters, [], scope =>
    match parameter.default? with
    | none => .error (.evaluation (.missingArgument parameter.name function) span)
    | some default => do
      let (scope, defaulted) ← bindParameters function span parameters [] (scope.assign parameter.name default)
      return (scope, (parameter.name, default.span) :: defaulted)

/-- Evaluates the parameters that were left to their defaults, one after the other. -/
def evaluateDefaults (envOf : Scope → Env) : List (String × Span) → Scope → Eval Scope
  | [], scope => pure scope
  | (name, span) :: defaulted, scope => do
    let value ← (Expr.var { span } name).evaluate (envOf scope)
    evaluateDefaults envOf defaulted (scope.assign name value)

/-- Runs a function on evaluated arguments. A default may refer to any other parameter, so all are bound before the first is
evaluated. -/
def run (envOf : Scope → Env) (scope : Scope) (function : Function) (values : List Expr) (span : Span) :
    Eval (Option Expr) := do
  if function.parameters.length < values.length then
    Run.fail (.evaluation (.tooManyArguments function.name function.parameters.length values.length) span)
  else
    Eval.record (.called scope.frame.context function.name values.length)
    let (bound, defaulted) ←
      bindParameters function.name span function.parameters values (scope.call function.name span)
    let inner ← evaluateDefaults envOf defaulted bound
    fun output =>
      let (result, activation) := Stmt.execBlock envOf function.body { scope := inner, output }
      (result, activation.output)

/-- Calls a function with at most a number of calls inside one another. -/
def callWithin (badge : String) : Nat → Scope → Function → List Expr → Span → Eval (Option Expr)
  | 0, _, function, _, span => Run.fail (.evaluation (.depthExceeded function.name) span)
  | depth + 1, scope, function, values, span =>
    function.run (Scope.env { badge, call := callWithin badge depth }) scope values span

end Function

end TriggerScript
