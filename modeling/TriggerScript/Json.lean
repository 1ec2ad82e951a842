import TriggerScript.Number

/-!
# JSON

Reports are written as JSON values: two blanks for each level, the fields of an object in their order, an empty list or
object on one line.
-/

namespace TriggerScript

/-- JSON values. Numbers are natural: reports hold no others. -/
inductive Json where
  | null
  | boolean (value : Bool)
  | number (value : Nat)
  | text (value : String)
  | list (items : List Json)
  | object (fields : List (String × Json))
  deriving Repr, Inhabited

namespace Json

/-- A text, or null where there is none. -/
def ofText? : Option String → Json
  | some value => .text value
  | none => .null

/-- A number, or null where there is none. -/
def ofNumber? : Option Nat → Json
  | some value => .number value
  | none => .null

/-- One character inside of a JSON string. Only quotation marks, backslashes and controls are escaped. -/
def escapedChar (c : Char) : List Char :=
  match c with
  | '"' => ['\\', '"']
  | '\\' => ['\\', '\\']
  | '\n' => ['\\', 'n']
  | '\r' => ['\\', 'r']
  | '\t' => ['\\', 't']
  | '\x08' => ['\\', 'b']
  | '\x0c' => ['\\', 'f']
  | c => if c.toNat < 0x20 then ['\\', 'u'] ++ Text.hexDigits 4 c.toNat else [c]

/-- A JSON string. -/
def quoted (text : String) : String :=
  String.ofList ('"' :: text.toList.flatMap escapedChar ++ ['"'])

/-- The begin of a line at a level. -/
def newline (level : Nat) : String :=
  "\n" ++ String.ofList (List.replicate (2 * level) ' ')

/-- The lines between two brackets, each at one level further in, or nothing at all. -/
def bracketed (level : Nat) (left right : String) (lines : List String) : String :=
  if lines.isEmpty then left ++ right
  else left ++ ",".intercalate (lines.map (newline (level + 1) ++ ·)) ++ newline level ++ right

mutual

/-- A JSON value at a level. -/
def renderAt (level : Nat) : Json → String
  | .null => "null"
  | .boolean value => if value then "true" else "false"
  | .number value => toString value
  | .text value => quoted value
  | .list items => bracketed level "[" "]" (itemLines level items)
  | .object fields => bracketed level "\x7b" "\x7d" (fieldLines level fields)

/-- The items of a list, one level further in. -/
def itemLines (level : Nat) : List Json → List String
  | [] => []
  | item :: items => item.renderAt (level + 1) :: itemLines level items

/-- The fields of an object, one level further in. -/
def fieldLines (level : Nat) : List (String × Json) → List String
  | [] => []
  | (name, value) :: fields => (quoted name ++ ": " ++ value.renderAt (level + 1)) :: fieldLines level fields

end

/-- A JSON value as text. -/
def render (value : Json) : String :=
  value.renderAt 0

end Json

end TriggerScript
