import TriggerScript.Memory
import TriggerScript.Expr.Basic

/-!
# Conditions

One line of a trigger: two operands and an operator between them, a flag that says what the line is for, and the number of
frames in which it has to hold.
-/

namespace TriggerScript

/-- What a condition looks at. -/
inductive Operand where
  /-- A read of memory. -/
  | memory (read : MemoryRead)
  /-- A number. -/
  | number (value : UInt32)
  deriving DecidableEq, Repr

/-- What a condition is for. -/
inductive Flag where
  | plain
  | pauseIf
  | resetIf
  | addSource
  | subSource
  | addHits
  | subHits
  | andNext
  | orNext
  | measured
  | trigger
  | resetNextIf
  deriving DecidableEq, Repr

namespace Flag

/-- The flags that have a letter in the wire format. -/
def lettered : List Flag :=
  [.pauseIf, .resetIf, .addSource, .subSource, .addHits, .subHits, .andNext, .orNext, .measured, .trigger, .resetNextIf]

/-- The letter of a flag in the wire format. -/
def letter? : Flag → Option Char
  | .plain => none
  | .pauseIf => some 'P'
  | .resetIf => some 'R'
  | .addSource => some 'A'
  | .subSource => some 'B'
  | .addHits => some 'C'
  | .subHits => some 'D'
  | .andNext => some 'N'
  | .orNext => some 'O'
  | .measured => some 'M'
  | .trigger => some 'T'
  | .resetNextIf => some 'Z'

/-- The flag with a letter. -/
def ofLetter? (c : Char) : Option Flag :=
  lettered.find? (·.letter? = some c)

/-- The name of a flag in reports and messages; empty for a plain condition. -/
def name : Flag → String
  | .plain => ""
  | .pauseIf => "PauseIf"
  | .resetIf => "ResetIf"
  | .addSource => "AddSource"
  | .subSource => "SubSource"
  | .addHits => "AddHits"
  | .subHits => "SubHits"
  | .andNext => "AndNext"
  | .orNext => "OrNext"
  | .measured => "Measured"
  | .trigger => "Trigger"
  | .resetNextIf => "ResetNextIf"

/-- Whether a condition only feeds its value into the next one and needs no comparison of its own. -/
def isSource : Flag → Bool
  | .addSource | .subSource => true
  | _ => false

end Flag

/-- The operator between the operands of a condition; products and quotients scale a source. -/
inductive Operator where
  | compare (op : ComparisonOp)
  | multiply
  | divide
  deriving DecidableEq, Repr

namespace Operator

/-- How an operator is spelled in the wire format. -/
def spelling : Operator → String
  | .compare .equal => "="
  | .compare .notEqual => "!="
  | .compare .less => "<"
  | .compare .lessEqual => "<="
  | .compare .greater => ">"
  | .compare .greaterEqual => ">="
  | .multiply => "*"
  | .divide => "/"

/-- Whether an operator is a comparison. -/
def isComparison : Operator → Bool
  | .compare _ => true
  | _ => false

end Operator

/-- One line of a trigger. -/
structure Condition where
  /-- What the condition is for. -/
  flag : Flag := .plain
  /-- The left operand. -/
  left : Operand
  /-- The operator and the right operand, if there are any. -/
  right? : Option (Operator × Operand)
  /-- The number of frames in which the condition has to hold; zero if one is enough and none are counted. -/
  hits : UInt32 := 0
  deriving DecidableEq, Repr

namespace Condition

/-- A plain comparison. -/
def comparison (left : Operand) (op : ComparisonOp) (right : Operand) : Condition :=
  { left, right? := some (.compare op, right) }

/-- The comparison that always holds. -/
def always : Condition :=
  comparison (.number 1) .equal (.number 1)

/-- The comparison that never holds. -/
def never : Condition :=
  comparison (.number 0) .equal (.number 1)

end Condition

end TriggerScript
