import TriggerScript.Memory

/-!
# Built-in functions

The functions that every script can call, and their names.
-/

namespace TriggerScript

/-- The functions that join a collection into one expression. -/
inductive Joiner where
  | allOf
  | anyOf
  | noneOf
  | sumOf
  deriving DecidableEq, Repr

/-- The built-in functions. -/
inductive Builtin where
  /-- Reads memory of a size. -/
  | read (size : MemorySize)
  /-- Reads the bit with an index. -/
  | bit
  /-- Takes a read from the frame before. -/
  | prev
  /-- Takes a read from before its last change. -/
  | prior
  /-- Takes a read as decimal digits. -/
  | bcd
  | once
  | repeated
  | never
  | unless
  | triggerWhen
  | measured
  | deduct
  | tally
  | alwaysTrue
  | alwaysFalse
  /-- Joins a collection. -/
  | join (joiner : Joiner)
  | range
  | length
  | format
  | achievement
  | leaderboard
  | display
  | conditionalDisplay
  | presenceValue
  | presenceLookup
  deriving DecidableEq, Repr

namespace Builtin

/-- What a script calls a built-in function. -/
def name : Builtin → String
  | .read size => size.functionName
  | .bit => "bit"
  | .prev => "prev"
  | .prior => "prior"
  | .bcd => "bcd"
  | .once => "once"
  | .repeated => "repeated"
  | .never => "never"
  | .unless => "unless"
  | .triggerWhen => "trigger_when"
  | .measured => "measured"
  | .deduct => "deduct"
  | .tally => "tally"
  | .alwaysTrue => "always_true"
  | .alwaysFalse => "always_false"
  | .join .allOf => "all_of"
  | .join .anyOf => "any_of"
  | .join .noneOf => "none_of"
  | .join .sumOf => "sum_of"
  | .range => "range"
  | .length => "length"
  | .format => "format"
  | .achievement => "achievement"
  | .leaderboard => "leaderboard"
  | .display => "rich_presence_display"
  | .conditionalDisplay => "rich_presence_conditional_display"
  | .presenceValue => "rich_presence_value"
  | .presenceLookup => "rich_presence_lookup"

/-- Every built-in function. -/
def all : List Builtin :=
  MemorySize.all.map .read ++
    [.bit, .prev, .prior, .bcd, .once, .repeated, .never, .unless, .triggerWhen, .measured, .deduct, .tally,
     .alwaysTrue, .alwaysFalse, .join .allOf, .join .anyOf, .join .noneOf, .join .sumOf, .range, .length, .format,
     .achievement, .leaderboard, .display, .conditionalDisplay, .presenceValue, .presenceLookup]

/-- The built-in function with a name. -/
def ofName? (name : String) : Option Builtin :=
  all.find? (·.name = name)

/-- Whether a name belongs to a built-in function. -/
def isName (name : String) : Bool :=
  (ofName? name).isSome

end Builtin

end TriggerScript
