import TriggerScript.Leaderboard
import TriggerScript.RichPresence
import TriggerScript.Token
import TriggerScript.Text.Quoted

/-!
# What a script registers

Achievements, leaderboards and rich presence, in the order they were registered, and a journal of what happened on the way.
-/

namespace TriggerScript

/-- An achievement. -/
structure Achievement where
  /-- Its number; zero for a new one. -/
  id : UInt32
  /-- What it is called. -/
  title : String
  /-- What has to be done. -/
  description : String
  /-- What it is worth. -/
  points : UInt32
  /-- The name of its picture. -/
  badge : String
  /-- When it is earned. -/
  trigger : Trigger
  deriving DecidableEq, Repr

/-- What a level of scopes is for. -/
inductive Context where
  /-- The script as a whole. -/
  | global
  /-- A call of a function, and where it stands. -/
  | call (name : String) (span : Span)
  /-- A step of a loop or of a function applied to a collection. -/
  | iteration (name : String)
  /-- The value of a variable that is being worked out. -/
  | resolving (name : String)
  deriving DecidableEq, Repr

/-- How a level of scopes is named in the journal. -/
def Context.describe : Context → String
  | .global => "global scope"
  | .call name span => s!"{name} (called at line {span.line}, column {span.column})"
  | .iteration name => "iteration over " ++ name
  | .resolving name => "resolving " ++ name

/-- Something that happened while a script was read or run. -/
inductive Event where
  /-- A function was called. -/
  | called (context : Context) (name : String) (count : Nat)
  /-- A function was defined that reads names which are not defined yet. -/
  | unresolvedNames (function : String) (names : List String)
  /-- An achievement was registered. -/
  | achievement (title : String) (trigger : Trigger)
  /-- A leaderboard was registered. -/
  | leaderboard (board : Leaderboard)
  /-- The script ended. -/
  | finished (achievements leaderboards : Nat)
  /-- The header has a game number that is none. -/
  | invalidGameId (text : String)
  deriving DecidableEq, Repr

namespace Event

/-- How important an event is. -/
def level : Event → String
  | .called .. => "TRACE"
  | .invalidGameId .. => "WARN"
  | _ => "DEBUG"

/-- The wording of an event. -/
def message : Event → String
  | .called context name count => s!"{context.describe} calls {name} with {count} arguments"
  | .unresolvedNames function names =>
    "function " ++ function ++ " references names not yet defined: " ++ Text.quotedList names
  | .achievement title trigger => "registered achievement " ++ Text.quoted title ++ ": " ++ trigger.wire
  | .leaderboard board => "registered leaderboard " ++ Text.quoted board.title ++ ": " ++ board.wire
  | .finished achievements leaderboards =>
    s!"script registered {achievements} achievements and {leaderboards} leaderboards"
  | .invalidGameId text => "ignoring invalid game id in header: " ++ Text.quoted text

end Event

/-- Everything that a script registers, and the journal of its run. -/
structure Output where
  /-- The title of the game. -/
  title? : Option String := none
  /-- The number of the game. -/
  gameId? : Option UInt32 := none
  /-- The achievements. -/
  achievements : Array Achievement := #[]
  /-- The leaderboards. -/
  leaderboards : Array Leaderboard := #[]
  /-- The rich presence script. -/
  presence : RichPresence := {}
  /-- What happened. -/
  journal : Array Event := #[]
  deriving DecidableEq, Repr, Inhabited

namespace Output

/-- Adds an event to the journal. -/
def record (event : Event) (output : Output) : Output :=
  { output with journal := output.journal.push event }

/-- Registers an achievement. -/
def addAchievement (achievement : Achievement) (output : Output) : Output :=
  { output with achievements := output.achievements.push achievement }

/-- Registers a leaderboard. -/
def addLeaderboard (board : Leaderboard) (output : Output) : Output :=
  { output with leaderboards := output.leaderboards.push board }

end Output

end TriggerScript
