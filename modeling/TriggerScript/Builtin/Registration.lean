import TriggerScript.Builtin.Templates
import TriggerScript.Trigger.Lower

/-!
# Functions that register output

Achievements, leaderboards and lines of rich presence. Conditions and values are lowered when they are registered.
-/

namespace TriggerScript.Arguments

variable (args : Arguments)

/-- The trigger of a condition argument. -/
def trigger (index : Nat) (name : String) : Except Error Trigger := do
  Trigger.ofExpr (← args.condition index name)

/-- The picture of an achievement. -/
def badge (default : String) : Except Error String :=
  match args.values[5]? with
  | none => .ok default
  | some value =>
    match value.constantText? with
    | some text => .ok text
    | none => .error (args.kindError "badge" "a string or integer" value)

/-- Registers an achievement. -/
def registerAchievement (defaultBadge : String) : Eval Unit := do
  args.expectBetween 4 6
  let title ← args.text 0 "title"
  let description ← args.text 1 "description"
  let points ← args.unsigned 2 "points"
  let trigger ← args.trigger 3 "trigger"
  let id ← args.unsignedOr 4 "id" 0
  let badge ← args.badge defaultBadge
  Eval.addAchievement { id, title, description, points, badge, trigger }

/-- Registers a leaderboard. -/
def registerLeaderboard : Eval Unit := do
  args.expectBetween 6 7
  let title ← args.text 0 "title"
  let description ← args.text 1 "description"
  let start ← args.trigger 2 "start"
  let cancel ← args.trigger 3 "cancel"
  let submit ← args.trigger 4 "submit"
  let value ← Value.ofExpr (← args.get 5 "value")
  let format ← args.format 6
  Eval.addLeaderboard { title, description, start, cancel, submit, value, format }

/-- A named value of a rich presence line. -/
def presence (display : MacroDisplay) : Except Error Expr := do
  let name ← args.text 0 "name"
  return .presence args.mark name display (← args.get 1 "expression")

/-- A value that is shown as a number. -/
def presenceNumber : Except Error Expr := do
  args.expectBetween 2 3
  args.presence (.value (← args.format 2))

/-- The texts for the keys of a value. -/
def lookupEntries : List (Expr × Expr) → Except Error (List (Int64 × String))
  | [] => .ok []
  | (.integer _ key, value) :: rest =>
    match value.constantText? with
    | some text => do return (key, text) :: (← lookupEntries rest)
    | none => .error (args.kindError "dictionary value" "a constant" value)
  | (key, _) :: _ => .error (args.kindError "dictionary key" "an integer" key)

/-- A value that is shown as a text. -/
def presenceText : Except Error Expr := do
  args.expectBetween 3 4
  match ← args.get 2 "dictionary" with
  | .dictionary _ entries =>
    let entries ← args.lookupEntries entries
    let fallback ← args.textOr 3 "fallback" ""
    args.presence (.lookup entries fallback)
  | value => throw (args.kindError "dictionary" "a dictionary" value)

/-- The text of a parameter of a rich presence line; a named value is registered and called by its name. -/
def presenceParameter (value : Expr) : Eval String := do
  match value with
  | .presence mark name display shown =>
    let lowered ← Value.ofExpr shown
    Eval.changePresence mark.span (match display with
      | .value format => RichPresence.addFormat name format
      | .lookup entries fallback => RichPresence.addLookup { name, entries, fallback })
    return "@" ++ name ++ "(" ++ lowered.wire ++ ")"
  | value => args.constantParameter "a constant or rich presence macro" value

/-- The text of a rich presence line, whose template is the argument at an index and its parameters those behind. -/
def presenceLine (index : Nat) : Eval String := do
  let template ← args.text index "format"
  args.fill template (args.values.drop (index + 1)) (args.presenceParameter)

/-- Sets the rich presence line that is shown otherwise. -/
def registerDisplay : Eval Unit := do
  args.expectAtLeast 1
  let text ← args.presenceLine 0
  Eval.changePresence args.span (·.setDisplay text)

/-- Adds a rich presence line that is shown under a condition. -/
def registerConditionalDisplay : Eval Unit := do
  args.expectAtLeast 2
  let trigger ← args.trigger 0 "condition"
  let text ← args.presenceLine 1
  Eval.changePresence args.span fun presence => (.ok (), presence.addConditional trigger text)

end TriggerScript.Arguments
