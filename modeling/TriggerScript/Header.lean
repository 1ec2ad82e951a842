import TriggerScript.Output
import TriggerScript.Text.Classes
import TriggerScript.Number

/-!
# Script headers

A script may begin with comment lines. The first of them is the title of the game, and a line with `#ID` holds its number.
-/

namespace TriggerScript.Header

/-- Cuts a text into lines; the line in the making is given in reverse. -/
def linesFrom : List Char → List Char → List (List Char)
  | current, [] => [current.reverse]
  | current, c :: rest => if c = '\n' then current.reverse :: linesFrom [] rest else linesFrom (c :: current) rest

/-- The comment on a line that holds nothing else. -/
def comment? (line : List Char) : Option (List Char) :=
  match Text.trim line with
  | '/' :: '/' :: comment => some (Text.trim comment)
  | _ => none

/-- The text of a game number in a comment. -/
def idText? : List Char → Option (List Char)
  | '#' :: 'I' :: 'D' :: rest => some (Text.trim ((Text.trimStart rest).dropWhile (· = '=')))
  | _ => none

/-- Reads a game number; a plus sign may stand before it. -/
def readId? : List Char → Option UInt32
  | '+' :: digits => Text.readUInt32? 10 digits
  | digits => Text.readUInt32? 10 digits

/-- Takes in a comment line; only the first line can be a title. -/
def readComment (isFirst : Bool) (comment : List Char) (output : Output) : Output :=
  match idText? comment with
  | some text =>
    match readId? text with
    | some id => { output with gameId? := some id }
    | none => output.record (.invalidGameId (String.ofList text))
  | none => if isFirst && !comment.isEmpty then { output with title? := some (String.ofList comment) } else output

/-- Takes in comment lines up to the first line that is none. -/
def readLines : Bool → List (List Char) → Output → Output
  | _, [], output => output
  | isFirst, line :: rest, output =>
    match comment? line with
    | some comment => readLines false rest (readComment isFirst comment output)
    | none => output

/-- Takes in the header of a script. -/
def read (source : String) (output : Output) : Output :=
  readLines true (linesFrom [] source.toList) output

end TriggerScript.Header
