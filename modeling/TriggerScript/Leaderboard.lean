import TriggerScript.Trigger
import TriggerScript.Value
import TriggerScript.ValueFormat

/-!
# Leaderboards

A leaderboard starts, is given up and submits a value on three triggers. In the wire format it is four named sections in
any order, with the names in either case; the last section with a name counts.
-/

namespace TriggerScript

/-- A leaderboard. -/
structure Leaderboard where
  /-- What it is called. -/
  title : String
  /-- What it is about. -/
  description : String
  /-- When an attempt begins. -/
  start : Trigger
  /-- When an attempt is given up. -/
  cancel : Trigger
  /-- When an attempt is submitted. -/
  submit : Trigger
  /-- What is submitted. -/
  value : Value
  /-- How it is shown. -/
  format : ValueFormat
  deriving DecidableEq, Repr

/-- The parts of a leaderboard that its text defines, as far as they have been read. -/
structure LeaderboardSections where
  /-- The trigger of the start section. -/
  start? : Option Trigger := none
  /-- The trigger of the cancel section. -/
  cancel? : Option Trigger := none
  /-- The trigger of the submit section. -/
  submit? : Option Trigger := none
  /-- The value of the value section. -/
  value? : Option Value := none
  deriving DecidableEq, Repr

namespace Leaderboard

/-- A leaderboard in the wire format. -/
def wire (board : Leaderboard) : String :=
  "STA:" ++ board.start.wire ++ "::CAN:" ++ board.cancel.wire ++ "::SUB:" ++ board.submit.wire ++
    "::VAL:" ++ board.value.wire

/-- Cuts a text at every double colon, from left to right; the section in the making is given in reverse. -/
def sectionsFrom : List Char → List Char → List (List Char)
  | current, [] => [current.reverse]
  | current, ':' :: ':' :: rest => current.reverse :: sectionsFrom [] rest
  | current, c :: rest => sectionsFrom (c :: current) rest

/-- The sections of a text. -/
def sections (text : String) : List (List Char) :=
  sectionsFrom [] text.toList

/-- Reads one section after others. -/
def readSection (found : LeaderboardSections) (part : List Char) : Except WireError LeaderboardSections :=
  let name := part.takeWhile (· ≠ ':')
  match part.drop name.length with
  | [] => .error (.unknownSection (String.ofList part))
  | _ :: body =>
    let body := String.ofList body
    match String.ofList (name.map Char.toUpper) with
    | "STA" => do return { found with start? := some (← Trigger.ofWire body) }
    | "CAN" => do return { found with cancel? := some (← Trigger.ofWire body) }
    | "SUB" => do return { found with submit? := some (← Trigger.ofWire body) }
    | "VAL" => do return { found with value? := some (← Value.ofWire body) }
    | _ => .error (.unknownSection (String.ofList name))

/-- A part of a leaderboard that has to be there. -/
def required {α : Type} (name : String) : Option α → Except WireError α
  | some part => .ok part
  | none => .error (.missingSection name)

/-- Reads a leaderboard with a given title, description and format. -/
def ofWire (title description : String) (format : ValueFormat) (text : String) : Except WireError Leaderboard := do
  let found ← (sections text).foldlM readSection {}
  let start ← required "STA" found.start?
  let cancel ← required "CAN" found.cancel?
  let submit ← required "SUB" found.submit?
  let value ← required "VAL" found.value?
  return { title, description, start, cancel, submit, value, format }

end Leaderboard

end TriggerScript
