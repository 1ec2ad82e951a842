import TriggerScript.Expr.Printer

/-!
# Faults of arguments

Why a built-in function refuses its arguments, and how it is said.
-/

namespace TriggerScript

/-- Why a built-in function refuses its arguments. -/
inductive ArgumentFault where
  /-- There are fewer arguments than the function needs. -/
  | tooFew (least count : Nat)
  /-- There are more arguments than the function takes. -/
  | tooMany (most count : Nat)
  /-- An argument is missing. -/
  | missing (name : String)
  /-- An argument of this kind is not what is expected. -/
  | wrongKind (name expected kind : String)
  /-- An address outside of 32 bits. -/
  | addressOutOfRange (address : Int64)
  /-- An address that itself depends on memory. -/
  | indirectAddress
  /-- A bit that a byte does not have. -/
  | noSuchBit (index : Int64)
  /-- A memory read that has a mode already. -/
  | modeTaken (read : Expr)
  /-- An argument of this kind is no memory read. -/
  | notRead (kind : String)
  /-- A count below one or above 32 bits. -/
  | notPositive (name : String) (value : Int64)
  /-- A number outside of 32 bits. -/
  | outOfRange (name : String) (value : Int64)
  /-- A tally without conditions. -/
  | noConditions
  /-- A predicate gave no value. -/
  | noResult (name : String)
  /-- A range in steps of zero. -/
  | zeroStep
  /-- A brace in a template that begins no placeholder. -/
  | invalidPlaceholder (template : String)
  /-- A placeholder for a parameter that is not there. -/
  | invalidParameter (digits : String)
  /-- A format with this name does not exist. -/
  | unknownFormat (name : String)
  deriving Repr

/-- The wording of a fault of arguments. -/
def ArgumentFault.message : ArgumentFault → String
  | .tooFew least count => s!"expected at least {least} arguments, got {count}"
  | .tooMany most count => s!"expected at most {most} arguments, got {count}"
  | .missing name => s!"missing required parameter '{name}'"
  | .wrongKind name expected kind => s!"{name} must be {expected}, got {kind}"
  | .addressOutOfRange address => "address out of range: " ++ toString address.toInt
  | .indirectAddress => "address must be a constant, indirect addressing is not supported"
  | .noSuchBit index => "index must be between 0 and 7, got " ++ toString index.toInt
  | .modeTaken read => "cannot be applied to " ++ read.render
  | .notRead kind => "accessor must be a memory read, got " ++ kind
  | .notPositive name value => name ++ " must be greater than zero, got " ++ toString value.toInt
  | .outOfRange name value => name ++ " must be between 0 and 4294967295, got " ++ toString value.toInt
  | .noConditions => "requires at least one condition"
  | .noResult name => name ++ " did not return a value"
  | .zeroStep => "step must not be zero"
  | .invalidPlaceholder template => "invalid placeholder in \"" ++ template ++ "\""
  | .invalidParameter digits => "invalid parameter index: \x7b" ++ digits ++ "\x7d"
  | .unknownFormat name => "unknown format: " ++ name

end TriggerScript
