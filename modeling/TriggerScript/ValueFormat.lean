/-!
# Display formats

How a leaderboard or a rich presence line shows a number. A script names a format in either case and by more than one
word; the wire format has one word for each, and a report another.
-/

namespace TriggerScript

/-- How a number is shown. -/
inductive ValueFormat where
  | value
  | score
  | frames
  | seconds
  | centiseconds
  | minutes
  | secondsAsMinutes
  | unsigned
  | other
  deriving DecidableEq, Repr

namespace ValueFormat

/-- The format that a word of a script names. -/
def ofName? (name : String) : Option ValueFormat :=
  match String.ofList (name.toList.map Char.toUpper) with
  | "VALUE" => some .value
  | "SCORE" | "POINTS" => some .score
  | "FRAMES" | "TIME" => some .frames
  | "SECS" | "SECONDS" => some .seconds
  | "MILLISECS" | "CENTISECS" => some .centiseconds
  | "MINUTES" => some .minutes
  | "SECS_AS_MINS" => some .secondsAsMinutes
  | "UNSIGNED" => some .unsigned
  | "OTHER" => some .other
  | _ => none

/-- The word for a format in the wire format. -/
def wire : ValueFormat → String
  | .value => "VALUE"
  | .score => "SCORE"
  | .frames => "TIME"
  | .seconds => "SECS"
  | .centiseconds => "MILLISECS"
  | .minutes => "MINUTES"
  | .secondsAsMinutes => "SECS_AS_MINS"
  | .unsigned => "UNSIGNED"
  | .other => "OTHER"

/-- The word for a format in a report. -/
def reportName : ValueFormat → String
  | .value => "VALUE"
  | .score => "SCORE"
  | .frames => "FRAMES"
  | .seconds => "SECONDS"
  | .centiseconds => "CENTISECONDS"
  | .minutes => "MINUTES"
  | .secondsAsMinutes => "SECONDS_AS_MINUTES"
  | .unsigned => "UNSIGNED"
  | .other => "OTHER"

end ValueFormat

end TriggerScript
