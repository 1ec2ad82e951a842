import TriggerScript.Error
import TriggerScript.Json
import TriggerScript.Output

/-!
# Reports

What a run has produced, as JSON for programs and as text for people.
-/

namespace TriggerScript

/-- An achievement as JSON. -/
def Achievement.report (achievement : Achievement) : Json :=
  .object
    [("id", .number achievement.id.toNat),
     ("title", .text achievement.title),
     ("description", .text achievement.description),
     ("points", .number achievement.points.toNat),
     ("badge", .text achievement.badge),
     ("trigger", .text achievement.trigger.wire)]

/-- A leaderboard as JSON. -/
def Leaderboard.report (board : Leaderboard) : Json :=
  .object
    [("title", .text board.title),
     ("description", .text board.description),
     ("format", .text board.format.reportName),
     ("definition", .text board.wire)]

/-- Everything that a script registered, as JSON. Without rich presence there is no field for it. -/
def Output.report (output : Output) : Json :=
  .object
    ([("title", .ofText? output.title?),
      ("game_id", .ofNumber? (output.gameId?.map UInt32.toNat)),
      ("achievements", .list (output.achievements.toList.map Achievement.report)),
      ("leaderboards", .list (output.leaderboards.toList.map Leaderboard.report))] ++
     (if output.presence.isEmpty then [] else [("rich_presence", .text output.presence.render)]))

/-- The name of the kind of a fault. -/
def Fault.kindName : Fault → String
  | .parse _ => "parse"
  | .evaluation _ => "evaluation"

/-- An error as JSON. -/
def Error.report (error : Error) : Json :=
  .object
    [("kind", .text error.fault.kindName),
     ("message", .text error.message),
     ("line", .number error.span.line),
     ("column", .number error.span.column)]

/-- A condition of a group as JSON. -/
def Condition.report (group : Nat) (condition : Condition) : Json :=
  .object
    [("group", .number group),
     ("flag", .text condition.flag.name),
     ("left", .text condition.left.wire),
     ("operator", .ofText? (condition.right?.map (·.1.spelling))),
     ("right", .ofText? (condition.right?.map (·.2.wire))),
     ("hits", .number condition.hits.toNat)]

/-- The conditions of a trigger as JSON; the core is group zero. -/
def Trigger.report (trigger : Trigger) : Json :=
  .list (trigger.groups.zipIdx.flatMap fun (conditions, group) => conditions.map (Condition.report group))

/-- Lines as text. -/
def joinLines (lines : List String) : String :=
  String.join (lines.map (· ++ "\n"))

/-- The lines of an achievement. -/
def Achievement.lines (achievement : Achievement) : List String :=
  [s!"Achievement {achievement.id.toNat}: {achievement.title} ({achievement.points.toNat} points)",
   "  " ++ achievement.description,
   "  " ++ achievement.trigger.wire]

/-- The lines of a leaderboard. -/
def Leaderboard.lines (board : Leaderboard) : List String :=
  [s!"Leaderboard: {board.title} ({board.format.wire})",
   "  " ++ board.description,
   "  " ++ board.wire]

/-- Everything that a script registered, as text. -/
def Output.render (output : Output) : String :=
  joinLines
    (output.title?.toList.map ("Game: " ++ ·) ++
     output.gameId?.toList.map (fun id => "Game ID: " ++ toString id.toNat) ++
     output.achievements.toList.flatMap Achievement.lines ++
     output.leaderboards.toList.flatMap Leaderboard.lines ++
     (if output.presence.isEmpty then [] else "Rich Presence:" :: output.presence.lines))

/-- A condition on a line of its own, with its number in its group. -/
def Condition.line (index : Nat) (condition : Condition) : String :=
  let number := String.ofList ((toString index).toList.leftpad 2 ' ')
  let flag := String.ofList (condition.flag.name.toList.rightpad 12 ' ')
  let right := match condition.right? with
    | some (op, operand) => " " ++ op.spelling ++ " " ++ operand.wire
    | none => ""
  let hits := if condition.hits = 0 then "" else s!" ({condition.hits.toNat} hits)"
  "  " ++ number ++ ": " ++ flag ++ condition.left.wire ++ right ++ hits

/-- The heading of a group. -/
def Trigger.groupHeading (group : Nat) : String :=
  if group = 0 then "Core" else "Alt " ++ toString group

/-- The conditions of a trigger as text, numbered in each group. -/
def Trigger.render (trigger : Trigger) : String :=
  joinLines (trigger.groups.zipIdx.flatMap fun (conditions, group) =>
    groupHeading group :: conditions.zipIdx.map fun (condition, index) => condition.line (index + 1))

end TriggerScript
