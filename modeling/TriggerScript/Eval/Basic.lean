import TriggerScript.Error
import TriggerScript.Output

/-!
# Runs

A run changes a state and ends with a result or an error. The state survives an error: what a script registered before it
failed stays registered. Evaluating an expression is a run that may register output on the way.
-/

namespace TriggerScript

/-- A computation over a state that may fail. -/
def Run (σ α : Type) : Type :=
  σ → Except Error α × σ

namespace Run

variable {σ α β : Type}

/-- Ends with a result and leaves the state alone. -/
def pure (a : α) : Run σ α := fun s =>
  (.ok a, s)

/-- Goes on with the result of a run; an error ends both. -/
def bind (run : Run σ α) (next : α → Run σ β) : Run σ β := fun s =>
  match run s with
  | (.ok a, s') => next a s'
  | (.error error, s') => (.error error, s')

instance : Monad (Run σ) where
  pure := Run.pure
  bind := Run.bind

/-- Fails and leaves the state alone. -/
def fail (error : Error) : Run σ α := fun s =>
  (.error error, s)

/-- Ends as a computation without a state does. -/
def ofExcept (result : Except Error α) : Run σ α := fun s =>
  (result, s)

instance : MonadLift (Except Error) (Run σ) where
  monadLift := ofExcept

/-- The state. -/
def get : Run σ σ := fun s =>
  (.ok s, s)

/-- Changes the state. -/
def modify (change : σ → σ) : Run σ Unit := fun s =>
  (.ok (), change s)

/-- Ends a run as it does, after a last change of the state whatever the end. -/
def andFinally (run : Run σ α) (change : σ → σ) : Run σ α := fun s =>
  let (result, s') := run s
  (result, change s')

end Run

/-! ## Runs that register output -/

/-- A run that registers output. -/
abbrev Eval := Run Output

namespace Eval

/-- Adds an event to the journal. -/
def record (event : Event) : Eval Unit :=
  Run.modify (·.record event)

/-- Registers an achievement. -/
def addAchievement (achievement : Achievement) : Eval Unit := do
  record (.achievement achievement.title achievement.trigger)
  Run.modify (·.addAchievement achievement)

/-- Registers a leaderboard. -/
def addLeaderboard (board : Leaderboard) : Eval Unit := do
  record (.leaderboard board)
  Run.modify (·.addLeaderboard board)

/-- Changes the rich presence script; a refusal is reported at a place. -/
def changePresence (span : Span) (change : RichPresence → Except PresenceFault Unit × RichPresence) : Eval Unit :=
  fun output =>
    match change output.presence with
    | (.ok _, presence) => (.ok (), { output with presence })
    | (.error fault, presence) => (.error (.evaluation (.presence fault) span), { output with presence })

end Eval

end TriggerScript
