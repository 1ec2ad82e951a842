import TriggerScript.Condition
import TriggerScript.Expr.Printer

/-!
# Faults of lowering

Why an evaluated expression has no trigger or no value, and how it is said.
-/

namespace TriggerScript

/-- Why an expression cannot be lowered. -/
inductive LoweringFault where
  /-- The expression is no condition. -/
  | notCondition (e : Expr)
  /-- The negation of an expression of this kind is no condition. -/
  | notInvertible (kind : String)
  /-- A connective lacks its left operand. -/
  | missingLeft
  /-- A deduction stands outside of a tally. -/
  | deductOutsideTally
  /-- A condition has a flag already. -/
  | flagTaken (old new : Flag)
  /-- There is no condition to put a flag or a hit count on. -/
  | noConditions
  /-- A repeated condition has only parts that undo it. -/
  | onlyResets
  /-- A condition has a hit count already. -/
  | hitsTaken
  /-- A tally has only deducted conditions. -/
  | onlyDeductions
  /-- A comparison with a negative number. -/
  | negativeNumber (value : Int64)
  /-- A comparison with a number above 32 bits. -/
  | numberTooLarge (value : Int64)
  /-- A comparison without a memory read. -/
  | noMemory (e : Expr)
  /-- The number to compare with overflows. -/
  | comparisonOverflow
  /-- Two sides that no condition compares. -/
  | notComparable (left right : Expr)
  /-- The expression is no sum of memory reads. -/
  | notSum (e : Expr)
  /-- A factor outside of 32 bits. -/
  | invalidScale (value : Int64)
  /-- The constant terms overflow. -/
  | sumOverflow
  /-- A read is divided by zero. -/
  | divisionByZero
  /-- A value holds a quotient. -/
  | divisionInValue
  deriving Repr

/-- The wording of a fault of lowering. -/
def LoweringFault.message : LoweringFault → String
  | .notCondition e => "Cannot convert " ++ e.kindName ++ " to a condition: " ++ e.render
  | .notInvertible kind => "Cannot invert " ++ kind
  | .missingLeft => "Missing left operand"
  | .deductOutsideTally => "deduct can only be used inside tally"
  | .flagTaken old new => "Cannot combine " ++ old.name ++ " with " ++ new.name
  | .noConditions => "Condition produced no output"
  | .onlyResets => "repeated requires at least one condition that is not never"
  | .hitsTaken => "Cannot apply multiple hit counts"
  | .onlyDeductions => "tally requires at least one condition that is not deducted"
  | .negativeNumber value => "Cannot compare against a negative value: " ++ toString value.toInt
  | .numberTooLarge value => "Value " ++ toString value.toInt ++ " does not fit in 32 bits"
  | .noMemory e => "Comparison does not reference memory: " ++ e.render
  | .comparisonOverflow => "Comparison value overflow"
  | .notComparable left right => "Cannot compare " ++ left.render ++ " against " ++ right.render
  | .notSum e => "Cannot convert " ++ e.kindName ++ " to a memory value: " ++ e.render
  | .invalidScale value => "Invalid scale factor: " ++ toString value.toInt
  | .sumOverflow => "Integer overflow"
  | .divisionByZero => "Division by zero"
  | .divisionInValue => "Division is not supported in values"

end TriggerScript
