import TriggerScript.Error
import TriggerScript.Number

/-!
# Arguments

The evaluated arguments of a call of a built-in function, and what the function may ask of them.
-/

namespace TriggerScript

/-- The arguments of a call. -/
structure Arguments where
  /-- The name of the function. -/
  function : String
  /-- The evaluated arguments. -/
  values : List Expr
  /-- Where the call stands. -/
  span : Span

namespace Arguments

variable (args : Arguments)

/-- The mark of an expression that the call makes. -/
def mark : Mark :=
  { span := args.span }

/-- A fault of the call as a whole. -/
def error (fault : ArgumentFault) : Error :=
  .evaluation (.argument args.function fault) args.span

/-- A value of another kind than expected. -/
def kindError (name expected : String) (value : Expr) : Error :=
  .causedBy (.argument args.function (.wrongKind name expected value.kindName)) value.span value

/-- Refuses fewer arguments than a least number. -/
def expectAtLeast (least : Nat) : Except Error Unit :=
  if args.values.length < least then .error (args.error (.tooFew least args.values.length)) else .ok ()

/-- Refuses fewer arguments than a least and more than a greatest number. -/
def expectBetween (least most : Nat) : Except Error Unit := do
  args.expectAtLeast least
  if most < args.values.length then throw (args.error (.tooMany most args.values.length))

/-- An argument. -/
def get (index : Nat) (name : String) : Except Error Expr :=
  match args.values[index]? with
  | some value => .ok value
  | none => .error (args.error (.missing name))

/-- An integer argument. -/
def integer (index : Nat) (name : String) : Except Error Int64 := do
  match ← args.get index name with
  | .integer _ value => return value
  | value => throw (args.kindError name "an integer constant" value)

/-- A text argument. -/
def text (index : Nat) (name : String) : Except Error String := do
  match ← args.get index name with
  | .text _ value => return value
  | value => throw (args.kindError name "a string" value)

/-- A text argument that may be left out. -/
def textOr (index : Nat) (name default : String) : Except Error String :=
  match args.values[index]? with
  | some _ => args.text index name
  | none => .ok default

/-- Refuses a value that is no condition. -/
def checkCondition (name : String) (value : Expr) : Except Error Unit :=
  if value.isCondition then .ok () else .error (args.kindError name "a condition" value)

/-- A condition argument. -/
def condition (index : Nat) (name : String) : Except Error Expr := do
  let value ← args.get index name
  args.checkCondition name value
  return value

/-- A count of at least one. -/
def positive (index : Nat) (name : String) : Except Error UInt32 := do
  let value ← args.integer index name
  match uint32? value.toInt with
  | some count => if count = 0 then throw (args.error (.notPositive name value)) else return count
  | none => throw (args.error (.notPositive name value))

/-- An unsigned 32-bit number. -/
def unsigned (index : Nat) (name : String) : Except Error UInt32 := do
  let value ← args.integer index name
  match uint32? value.toInt with
  | some number => return number
  | none => throw (args.error (.outOfRange name value))

/-- An unsigned 32-bit number that may be left out. -/
def unsignedOr (index : Nat) (name : String) (default : UInt32) : Except Error UInt32 :=
  match args.values[index]? with
  | some _ => args.unsigned index name
  | none => .ok default

/-- A display format that may be left out. -/
def format (index : Nat) : Except Error ValueFormat := do
  let name ← args.textOr index "format" "value"
  match ValueFormat.ofName? name with
  | some format => return format
  | none => throw (args.error (.unknownFormat name))

end Arguments

end TriggerScript
