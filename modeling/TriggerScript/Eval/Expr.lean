import TriggerScript.Eval.Basic
import TriggerScript.Eval.Fold

/-!
# Evaluating expressions

Evaluation replaces every name by its value, runs every call and folds every operator. What names and calls mean is asked of
an environment.
-/

namespace TriggerScript

/-- What expressions ask of their surroundings. -/
structure Env where
  /-- The value of a name that stands at a place. -/
  resolve : String → Span → Eval Expr
  /-- The result of a call with evaluated arguments that stands at a place. -/
  call : String → List Expr → Span → Eval (Option Expr)

namespace Expr

/-- Goes on only with an expression that has a value. -/
def ifValue (e : Expr) (run : Eval Expr) : Eval Expr :=
  if e.isValue then run else Run.fail (.causedBy (.notValue e.kindName) e.span e)

/-- The entry of an evaluated container under an evaluated key, for an index as it was written. -/
def entryAt (base index container key : Expr) : Except Error Expr :=
  match container with
  | .dictionary _ entries =>
    match findValue? key entries with
    | some value => .ok value
    | none => .error (.evaluation (.noEntry key) index.span)
  | container => .error (.evaluation (.notDictionary base.render container.kindName) base.span)

/-- The value of a call that has to have one. -/
def resultOf (name : String) (span : Span) : Option Expr → Except Error Expr
  | some value => .ok value
  | none => .error (.evaluation (.noResult name) span)

mutual

/-- The tree with every name resolved, every call run and every operator folded. -/
def replace (env : Env) : Expr → Eval Expr
  | .var mark name => env.resolve name mark.span
  | .indexed _ base index => do
    let container ← base.replace env
    let key ← index.ifValue (index.replace env)
    entryAt base index container key
  | .array mark entries => do return .array mark (← evaluateAll env entries)
  | .dictionary mark entries => do return .dictionary mark (← evaluateEntries env [] entries)
  | .arithmetic mark op left right => do
    let left' ← left.replace env
    let right' ← right.replace env
    Fold.arithmetic (.arithmetic mark op left right) op left' right'
  | .comparison mark op left right => do
    let left' ← left.replace env
    let right' ← right.replace env
    Fold.comparison (.comparison mark op left right) op left' right'
  | .logical mark op left? right => do
    let left' ← replaceOption env left?
    let right' ← right.replace env
    Fold.logical (.logical mark op left? right) op left' right'
  | .call mark name args => do
    let values ← evaluateAll env args
    resultOf name mark.span (← env.call name values mark.span)
  | .returned mark value => do return .returned mark (← value.replace env)
  | .modified mark modifier condition => do return .modified mark modifier (← condition.replace env)
  | .tally mark target entries => do return .tally mark target (← replaceAll env entries)
  | .presence mark name display value => do return .presence mark name display (← value.replace env)
  | e => pure e

/-- Replaces an operand that may be missing. -/
def replaceOption (env : Env) : Option Expr → Eval (Option Expr)
  | none => pure none
  | some e => do return some (← e.replace env)

/-- Replaces expressions one after the other. -/
def replaceAll (env : Env) : List Expr → Eval (List Expr)
  | [] => pure []
  | e :: es => do
    let first ← e.replace env
    let others ← replaceAll env es
    return first :: others

/-- Evaluates expressions one after the other. -/
def evaluateAll (env : Env) : List Expr → Eval (List Expr)
  | [] => pure []
  | e :: es => do
    let first ← e.ifValue (e.replace env)
    let others ← evaluateAll env es
    return first :: others

/-- Evaluates the entries of a dictionary after those already evaluated. A key may not be the same as an earlier one. -/
def evaluateEntries (env : Env) (done : List (Expr × Expr)) : List (Expr × Expr) → Eval (List (Expr × Expr))
  | [] => pure done
  | (key, value) :: rest => do
    let key' ← key.ifValue (key.replace env)
    if done.any (·.1.same key') then
      Run.fail (.evaluation (.duplicateKey key') key'.span)
    else
      let value' ← value.ifValue (value.replace env)
      evaluateEntries env (done ++ [(key', value')]) rest

end

/-- The value of an expression. -/
def evaluate (env : Env) (e : Expr) : Eval Expr :=
  e.ifValue (e.replace env)

/-- The truth of an evaluated condition that does not depend on memory. -/
def constantTruth? : Expr → Option Bool
  | .boolean _ value => some value
  | .alwaysTrue _ => some true
  | .alwaysFalse _ => some false
  | _ => none

/-- Whether a condition is true. The right operand of a connective is looked at only if the left one does not decide. -/
def isTrue (env : Env) : Expr → Eval Bool
  | .logical _ .not _ right => do return !(← right.isTrue env)
  | .logical _ .and (some left) right => do if ← left.isTrue env then right.isTrue env else return false
  | .logical _ .or (some left) right => do if ← left.isTrue env then return true else right.isTrue env
  | .logical mark _ none _ => Run.fail (.evaluation .missingLeft mark.span)
  | .boolean _ value => pure value
  | .alwaysTrue _ => pure true
  | .alwaysFalse _ => pure false
  | e => do
    let value ← e.replace env
    match value.constantTruth? with
    | some truth => return truth
    | none => Run.fail (.causedBy (.notConstant e) e.span value)

end Expr

end TriggerScript
