import TriggerScript.Builtin.Arguments
import TriggerScript.Builtin.Basic
import TriggerScript.Eval.Basic
import TriggerScript.Eval.Fold

/-!
# Functions that join collections

A collection becomes one condition or one sum. Its items may first go through a function; each result is checked, marked as
one unit of logic and joined to those before it.
-/

namespace TriggerScript

namespace Joiner

/-- An item in the form in which it is joined. -/
def prepare (joiner : Joiner) (args : Arguments) (item : Expr) : Except Error Expr :=
  match joiner with
  | .allOf | .anyOf => do
    args.checkCondition "element" item
    return item
  | .noneOf => do
    args.checkCondition "element" item
    return item.invert
  | .sumOf => if item.isNumeric then .ok item else .error (args.kindError "element" "numeric" item)

/-- Two conditions joined where the first stands. -/
def connect (op : LogicalOp) (left right : Expr) : Expr :=
  let mark : Mark := { span := left.span }
  Fold.connect (op = .or) (.boolean mark (op = .or)) (.logical mark op (some left) right) left right

/-- Two numbers added where the first stands. -/
def add (left right : Expr) : Except Error Expr :=
  let mark : Mark := { span := left.span }
  match left, right with
  | .integer _ a, .integer _ b =>
    match int64? (a.toInt + b.toInt) with
    | some sum => .ok (.integer mark sum)
    | none => .error (.causedBy .overflow right.span right)
  | left, right => .ok (.arithmetic mark .add left right)

/-- An item joined to those before it. -/
def combine (joiner : Joiner) (left right : Expr) : Except Error Expr :=
  match joiner with
  | .allOf | .noneOf => .ok (connect .and left right)
  | .anyOf => .ok (connect .or left right)
  | .sumOf => add left right

/-- What an empty collection becomes. -/
def empty (joiner : Joiner) (mark : Mark) : Expr :=
  match joiner with
  | .allOf | .noneOf => .alwaysTrue mark
  | .anyOf => .alwaysFalse mark
  | .sumOf => .integer mark 0

/-- Joins items to those already joined. -/
def joinItems (joiner : Joiner) (args : Arguments) (element : Expr → Eval Expr) :
    Option Expr → List Expr → Eval (Option Expr)
  | joined?, [] => pure joined?
  | joined?, item :: items => do
    let next ← joiner.prepare args (← element item)
    let joined ← match joined? with
      | none => pure next.asUnit
      | some joined => joiner.combine joined next.asUnit
    joinItems joiner args element (some joined) items

/-- The function that the items of a collection go through. -/
def predicate? (args : Arguments) : Except Error (Option String) :=
  match args.values[1]? with
  | none => .ok none
  | some (Expr.functionRef _ name) => .ok (some name)
  | some value => .error (args.kindError "predicate" "a function reference" value)

/-- Joins a collection; `apply` calls a function on an item. -/
def join (joiner : Joiner) (args : Arguments) (apply : String → Expr → Eval (Option Expr)) : Eval Expr := do
  args.expectBetween 1 2
  let inputs ← args.get 0 "inputs"
  match inputs.items? with
  | none => Run.fail (args.kindError "inputs" "an array or dictionary" inputs)
  | some items =>
    let predicate? ← predicate? args
    let joined? ← joinItems joiner args (element args apply predicate?) none items
    let joined := joined?.getD (joiner.empty args.mark)
    return joined.withMark { span := args.span, unit := true }
where
  /-- What is joined for an item: the item itself, or the result of a function on it. -/
  element (args : Arguments) (apply : String → Expr → Eval (Option Expr)) (predicate? : Option String) (item : Expr) :
      Eval Expr :=
    match predicate? with
    | none => pure item
    | some name => do
      match ← apply name item with
      | some result => pure result
      | none => Run.fail (args.error (.noResult name))

end Joiner

end TriggerScript
