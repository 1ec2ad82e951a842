import TriggerScript.Trigger
import TriggerScript.ValueFormat

/-!
# Rich presence

The script that describes what a player is doing: formats and lookups for the values it shows, lines that are shown under a
condition, and the line that is shown otherwise. A name belongs to one format or one lookup, and can be registered again
only with the same content.
-/

namespace TriggerScript

/-- The texts for the keys of a value, and the text for all other keys. -/
structure Lookup where
  /-- The name of the lookup. -/
  name : String
  /-- The keys and their texts. -/
  entries : List (Int64 × String)
  /-- The text for other keys; none if it is empty. -/
  fallback : String
  deriving DecidableEq, Repr

/-- Why something cannot be added to a rich presence script. -/
inductive PresenceFault where
  /-- The name has another format. -/
  | otherFormat (name : String)
  /-- The name belongs to a lookup. -/
  | isLookup (name : String)
  /-- The name has another lookup. -/
  | otherLookup (name : String)
  /-- The name belongs to a format. -/
  | isFormat (name : String)
  /-- The default line is set already. -/
  | displayTaken
  deriving DecidableEq, Repr

/-- The wording of a fault of rich presence. -/
def PresenceFault.message : PresenceFault → String
  | .otherFormat name => s!"Multiple formats specified for rich presence value {name}"
  | .isLookup name => s!"{name} is already registered as a lookup"
  | .otherLookup name => s!"Multiple definitions for rich presence lookup {name}"
  | .isFormat name => s!"{name} is already registered as a value"
  | .displayTaken => "Only one rich_presence_display may be specified"

/-- A rich presence script in the making. -/
structure RichPresence where
  /-- The formats of values, in the order they were registered. -/
  formats : List (String × ValueFormat) := []
  /-- The lookups, in the order they were registered. -/
  lookups : List Lookup := []
  /-- The lines with a condition, in order. -/
  conditionals : List (Trigger × String) := []
  /-- The line that is shown when no condition holds. -/
  display? : Option String := none
  deriving DecidableEq, Repr, Inhabited

namespace RichPresence

/-- Whether nothing would be shown. -/
def isEmpty (presence : RichPresence) : Bool :=
  presence.display?.isNone && presence.conditionals.isEmpty

/-- Registers the format of a value. -/
def addFormat (name : String) (format : ValueFormat) (presence : RichPresence) : Except PresenceFault Unit × RichPresence :=
  match presence.formats.find? (·.1 = name) with
  | some (_, existing) => if existing = format then (.ok (), presence) else (.error (.otherFormat name), presence)
  | none =>
    if presence.lookups.any (·.name = name) then (.error (.isLookup name), presence)
    else (.ok (), { presence with formats := presence.formats ++ [(name, format)] })

/-- Registers a lookup. -/
def addLookup (lookup : Lookup) (presence : RichPresence) : Except PresenceFault Unit × RichPresence :=
  match presence.lookups.find? (·.name = lookup.name) with
  | some existing => if existing = lookup then (.ok (), presence) else (.error (.otherLookup lookup.name), presence)
  | none =>
    if presence.formats.any (·.1 = lookup.name) then (.error (.isFormat lookup.name), presence)
    else (.ok (), { presence with lookups := presence.lookups ++ [lookup] })

/-- Sets the line that is shown when no condition holds. -/
def setDisplay (text : String) (presence : RichPresence) : Except PresenceFault Unit × RichPresence :=
  match presence.display? with
  | some _ => (.error .displayTaken, presence)
  | none => (.ok (), { presence with display? := some text })

/-- Adds a line with a condition. -/
def addConditional (trigger : Trigger) (text : String) (presence : RichPresence) : RichPresence :=
  { presence with conditionals := presence.conditionals ++ [(trigger, text)] }

/-- The lines of a format. -/
def formatLines (name : String) (format : ValueFormat) : List String :=
  ["Format:" ++ name, "FormatType=" ++ format.wire, ""]

/-- The lines of a lookup. -/
def lookupLines (lookup : Lookup) : List String :=
  ["Lookup:" ++ lookup.name] ++
    lookup.entries.map (fun (key, text) => toString key.toInt ++ "=" ++ text) ++
    (if lookup.fallback.isEmpty then [] else ["*=" ++ lookup.fallback]) ++ [""]

/-- The lines of a rich presence script. -/
def lines (presence : RichPresence) : List String :=
  presence.formats.flatMap (fun (name, format) => formatLines name format) ++
    presence.lookups.flatMap lookupLines ++ ["Display:"] ++
    presence.conditionals.map (fun (trigger, text) => "?" ++ trigger.wire ++ "?" ++ text) ++
    presence.display?.toList

/-- A rich presence script as text. -/
def render (presence : RichPresence) : String :=
  String.join (presence.lines.map (· ++ "\n"))

end RichPresence

end TriggerScript
