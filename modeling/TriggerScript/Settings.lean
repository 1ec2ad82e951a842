import TriggerScript.Number

/-!
# Settings

What can be set from outside of a script. A settings file is a JSON object whose fields may come in any order and may be
missing, or a JSON list of the fields in their order. Nothing else may stand in it.
-/

namespace TriggerScript

/-- How scripts are run. -/
structure Settings where
  /-- How many calls of functions may be open inside one another. -/
  maxCallDepth : Nat := 100
  /-- The badge of achievements that name none. -/
  defaultBadge : String := "0"
  deriving DecidableEq, Repr, Inhabited

/-- Why settings are refused. -/
inductive SettingsFault where
  /-- The text is no settings file. -/
  | malformed
  /-- No call would be possible. -/
  | depthTooSmall
  /-- The depth is above the limit. -/
  | depthTooLarge (depth : Nat)
  deriving DecidableEq, Repr

/-- The largest depth of calls that a settings file may ask for. -/
def Settings.depthLimit : Nat := 256

/-- The wording of a fault of settings. -/
def SettingsFault.message : SettingsFault → String
  | .malformed => "not a valid settings file"
  | .depthTooSmall => "max_call_depth must be at least 1"
  | .depthTooLarge depth => s!"max_call_depth must be at most {Settings.depthLimit}, got {depth}"

/-- Refuses a depth of calls outside of its limits. -/
def Settings.check (settings : Settings) : Except SettingsFault Settings :=
  if settings.maxCallDepth = 0 then .error .depthTooSmall
  else if Settings.depthLimit < settings.maxCallDepth then .error (.depthTooLarge settings.maxCallDepth)
  else .ok settings

/-! ## Settings files -/

/-- Reads from the front of a text. -/
abbrev JsonReader := StateT (List Char) Option

namespace JsonReader

/-- Whether a character may stand between two tokens of JSON. -/
def isBlank (c : Char) : Bool :=
  c = ' ' || c = '\n' || c = '\t' || c = '\r'

/-- Skips blanks and reads one character. -/
def next : JsonReader Char := fun cs =>
  match cs.dropWhile isBlank with
  | c :: rest => some (c, rest)
  | [] => none

/-- Skips blanks and reads a given character. -/
def symbol (c : Char) : JsonReader Unit := do
  if (← next) = c then pure () else failure

/-- Skips blanks and reads a given character if it is there. -/
def symbolIfNext (c : Char) : JsonReader Bool := fun cs =>
  match symbol c cs with
  | some (_, rest) => some (true, rest)
  | none => some (false, cs)

/-- Reads a natural number of 64 bits without leading zeros. -/
def number : JsonReader Nat := fun cs =>
  let cs := cs.dropWhile isBlank
  let digits := cs.takeWhile (Text.isDigit 10)
  if digits.head? = some '0' ∧ 1 < digits.length then none
  else (Text.readNat? 10 (UInt64.size - 1) digits).map (·, cs.drop digits.length)

/-- The character of an escape that is one letter long. -/
def escaped? : Char → Option Char
  | '"' => some '"'
  | '\\' => some '\\'
  | '/' => some '/'
  | 'b' => some '\x08'
  | 'f' => some '\x0c'
  | 'n' => some '\n'
  | 'r' => some '\r'
  | 't' => some '\t'
  | _ => none

/-- The code unit that four hexadecimal digits spell. -/
def unit? (a b c d : Char) : Option Nat :=
  Text.valueOfDigits? 16 0 [a, b, c, d]

/-- Whether a code unit is the first of a pair. -/
def isHighUnit (unit : Nat) : Bool :=
  0xD800 ≤ unit && unit < 0xDC00

/-- Whether a code unit is the second of a pair. -/
def isLowUnit (unit : Nat) : Bool :=
  0xDC00 ≤ unit && unit < 0xE000

/-- The character of a pair of code units. -/
def charOfPair? (high low : Nat) : Option Char :=
  if isHighUnit high && isLowUnit low then
    some (Char.ofNat (0x10000 + (high - 0xD800) * 0x400 + (low - 0xDC00)))
  else none

/-- The character of a code unit that stands alone. -/
def charOfUnit? (unit : Nat) : Option Char :=
  if isHighUnit unit || isLowUnit unit then none else some (Char.ofNat unit)

/-- Reads the rest of a string behind its first quotation mark; what has been read is given in reverse. -/
def stringFrom : List Char → List Char → Option (String × List Char)
  | _, [] => none
  | read, '"' :: rest => some (String.ofList read.reverse, rest)
  | read, '\\' :: 'u' :: a :: b :: c :: d :: rest =>
    match unit? a b c d with
    | none => none
    | some unit =>
      match charOfUnit? unit with
      | some char => stringFrom (char :: read) rest
      | none =>
        match rest with
        | '\\' :: 'u' :: e :: f :: g :: h :: rest =>
          match (unit? e f g h).bind (charOfPair? unit) with
          | some char => stringFrom (char :: read) rest
          | none => none
        | _ => none
  | read, '\\' :: c :: rest =>
    match escaped? c with
    | some char => stringFrom (char :: read) rest
    | none => none
  | read, c :: rest => if c = '\\' ∨ c.toNat < 0x20 then none else stringFrom (c :: read) rest

/-- Reads a string. -/
def string : JsonReader String := do
  symbol '"'
  fun cs => stringFrom [] cs

end JsonReader

/-- The fields of a settings file, as far as they have been read. -/
structure SettingsFields where
  /-- The depth of calls. -/
  maxCallDepth? : Option Nat := none
  /-- The badge. -/
  defaultBadge? : Option String := none
  deriving DecidableEq, Repr

namespace SettingsFields

/-- Reads the value of a field that has not been read yet. -/
def readField (fields : SettingsFields) (name : String) : JsonReader SettingsFields := do
  if name = "max_call_depth" ∧ fields.maxCallDepth?.isNone then
    return { fields with maxCallDepth? := some (← JsonReader.number) }
  else if name = "default_badge" ∧ fields.defaultBadge?.isNone then
    return { fields with defaultBadge? := some (← JsonReader.string) }
  else
    failure

/-- Reads the fields of an object up to its end. Each name may come once, so their number is bounded. -/
def readFields : Nat → SettingsFields → JsonReader SettingsFields
  | 0, _ => failure
  | bound + 1, fields => do
    let name ← JsonReader.string
    JsonReader.symbol ':'
    let fields ← fields.readField name
    if ← JsonReader.symbolIfNext '\x7d' then
      return fields
    else
      JsonReader.symbol ','
      readFields bound fields

/-- Reads an object behind its first brace. -/
def readObject : JsonReader SettingsFields := do
  if ← JsonReader.symbolIfNext '\x7d' then return {} else readFields 2 {}

/-- Reads a list behind its first bracket. -/
def readList : JsonReader SettingsFields := do
  if ← JsonReader.symbolIfNext ']' then
    return {}
  else
    let depth ← JsonReader.number
    if ← JsonReader.symbolIfNext ']' then
      return { maxCallDepth? := some depth }
    else
      JsonReader.symbol ','
      let badge ← JsonReader.string
      JsonReader.symbol ']'
      return { maxCallDepth? := some depth, defaultBadge? := some badge }

/-- Reads the fields of a settings file. -/
def read : JsonReader SettingsFields := do
  match ← JsonReader.next with
  | '\x7b' => readObject
  | '[' => readList
  | _ => failure

/-- The fields that a whole text holds. -/
def ofText? (text : String) : Option SettingsFields :=
  match read text.toList with
  | some (fields, rest) => if rest.all JsonReader.isBlank then some fields else none
  | none => none

/-- Settings with the fields that were read; the others have their defaults. -/
def settings (fields : SettingsFields) : Settings :=
  let defaults : Settings := {}
  { maxCallDepth := fields.maxCallDepth?.getD defaults.maxCallDepth
    defaultBadge := fields.defaultBadge?.getD defaults.defaultBadge }

end SettingsFields

/-- Reads a settings file. -/
def Settings.parse (text : String) : Except SettingsFault Settings :=
  match SettingsFields.ofText? text with
  | some fields => fields.settings.check
  | none => .error .malformed

end TriggerScript
