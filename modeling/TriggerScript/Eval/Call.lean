import TriggerScript.Builtin.Joins
import TriggerScript.Builtin.Registration
import TriggerScript.Builtin.Values
import TriggerScript.Eval.Expr
import TriggerScript.Scope

/-!
# Names and calls in a scope

A built-in function runs on evaluated arguments. It gives a value, or registers output and gives none. A name is a variable,
else a function used as a value. A variable may be bound to an expression that is not evaluated yet; it is worked out when it
is needed, and not inside its own value. A call looks for a defined function, then for a built-in one, then for a variable
that stands for a function.
-/

namespace TriggerScript

/-! ## Built-in functions -/

namespace Builtin

/-- What a function that gives a value gives. -/
def giving (result : Except Error Expr) : Eval (Option Expr) := do
  return some (← result)

/-- What a function that only registers output gives. -/
def silently (run : Eval Unit) : Eval (Option Expr) := do
  run
  return none

/-- Applies a built-in function. Achievements without a picture of their own take the default badge; `apply` calls a
function on an item of a collection. -/
def apply (defaultBadge : String) (apply : String → Expr → Eval (Option Expr)) (builtin : Builtin) (args : Arguments) :
    Eval (Option Expr) :=
  match builtin with
  | .read size => giving (args.readMemory size)
  | .bit => giving (args.readBit)
  | .prev => giving (args.withMode .previous)
  | .prior => giving (args.withMode .prior)
  | .bcd => giving (args.withMode .decimal)
  | .once => giving (args.modify (.repeated 1))
  | .repeated => giving (args.repeatCondition)
  | .never => giving (args.modify .never)
  | .unless => giving (args.modify .unless)
  | .triggerWhen => giving (args.modify .triggerWhen)
  | .measured => giving (args.modify .measured)
  | .deduct => giving (args.modify .deduct)
  | .tally => giving (args.tallyConditions)
  | .alwaysTrue => giving (args.constantCondition (.alwaysTrue args.mark))
  | .alwaysFalse => giving (args.constantCondition (.alwaysFalse args.mark))
  | .join joiner => some <$> joiner.join args apply
  | .range => giving (args.rangeArray)
  | .length => giving (args.lengthOf)
  | .format => some <$> args.formatText
  | .achievement => silently (args.registerAchievement defaultBadge)
  | .leaderboard => silently (args.registerLeaderboard)
  | .display => silently (args.registerDisplay)
  | .conditionalDisplay => silently (args.registerConditionalDisplay)
  | .presenceValue => giving (args.presenceNumber)
  | .presenceLookup => giving (args.presenceText)

end Builtin

/-! ## Scopes -/

/-- How the functions of a script are called, and what achievements look like that do not say. -/
structure Caller where
  /-- The badge of achievements that name none. -/
  badge : String
  /-- Calls a function from a scope with evaluated arguments. -/
  call : Scope → Function → List Expr → Span → Eval (Option Expr)

/-- What a call calls. -/
inductive Callee where
  /-- A function of the script. -/
  | function (function : Function)
  /-- A built-in function. -/
  | builtin (builtin : Builtin)
  /-- Nothing, for this name. -/
  | unknown (name : String)

namespace Scope

/-- What a name calls, going through at most a number of variables. -/
def calleeWithin (scope : Scope) : Nat → String → Callee
  | 0, name => .unknown name
  | bound + 1, name =>
    match scope.function? name with
    | some function => .function function
    | none =>
      match Builtin.ofName? name with
      | some builtin => .builtin builtin
      | none =>
        match scope.find? name with
        | some (.functionRef _ target) => if target = name then .unknown name else calleeWithin scope bound target
        | _ => .unknown name

/-- What a name calls. A way through variables that does not end is longer than their number. -/
def callee (scope : Scope) (name : String) : Callee :=
  scope.calleeWithin (scope.size + 1) name

/-- Calls what a name stands for; `apply` calls a function on an item of a collection from a scope inside this one. -/
def invokeWith (caller : Caller) (apply : Scope → String → Expr → Eval (Option Expr)) (scope : Scope) (name : String)
    (values : List Expr) (span : Span) : Eval (Option Expr) :=
  match scope.callee name with
  | .function function => caller.call scope function values span
  | .builtin builtin =>
    builtin.apply caller.badge (fun predicate item => apply (scope.child (.iteration predicate)) predicate item)
      { function := builtin.name, values, span }
  | .unknown name => Run.fail (.evaluation (.unknownFunction name) span)

/-- Calls a function on one item. A built-in function with one argument applies no function itself. -/
def invokeOn (caller : Caller) (span : Span) (scope : Scope) (name : String) (item : Expr) : Eval (Option Expr) :=
  scope.invokeWith caller (fun _ _ _ => pure none) name [item] span

/-- Calls what a name stands for with evaluated arguments. -/
def invoke (caller : Caller) (scope : Scope) (name : String) (values : List Expr) (span : Span) : Eval (Option Expr) :=
  scope.invokeWith caller (invokeOn caller span) name values span

/-- The value of a name; `workOut` evaluates a bound expression from a scope inside this one. -/
def resolveWith (workOut : Scope → Expr → Eval Expr) (scope : Scope) (name : String) (span : Span) : Eval Expr :=
  match scope.find? name with
  | none =>
    if (scope.function? name).isSome || Builtin.isName name then pure (.functionRef { span } name)
    else Run.fail (.evaluation (.unknownVariable name) span)
  | some value =>
    if value.isReduced then pure value
    else if scope.isResolving name then Run.fail (.evaluation (.recursiveReference name) span)
    else workOut (scope.child (.resolving name)) value

/-- The environment of a scope in which at most a number of variables are worked out inside one another. -/
def envWithin (caller : Caller) : Nat → Scope → Env
  | 0, scope =>
    { resolve := scope.resolveWith fun _ e => Run.fail (.evaluation (.recursiveReference e.render) e.span)
      call := scope.invoke caller }
  | bound + 1, scope =>
    { resolve := scope.resolveWith fun inner e => e.replace (envWithin caller bound inner)
      call := scope.invoke caller }

/-- The environment of a scope. No variable is worked out inside itself, so their number bounds the nesting. -/
def env (caller : Caller) (scope : Scope) : Env :=
  scope.envWithin caller scope.size

end Scope

end TriggerScript
