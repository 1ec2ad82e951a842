import TriggerScript.Memory
import TriggerScript.Token
import TriggerScript.ValueFormat

/-!
# Expressions

The trees that scripts are made of and evaluate to. The parser makes the first kinds, up to the returned value; the
others appear only when a script is evaluated. Every node carries a mark, the place it was read from and whether it stands
for one unit of logic, and two trees are the same if they differ in marks only.
-/

namespace TriggerScript

/-- Arithmetic on integers. -/
inductive ArithmeticOp where
  | add
  | subtract
  | multiply
  | divide
  | modulus
  deriving DecidableEq, Repr

/-- How an arithmetic operator is spelled. -/
def ArithmeticOp.spelling : ArithmeticOp → String
  | .add => "+"
  | .subtract => "-"
  | .multiply => "*"
  | .divide => "/"
  | .modulus => "%"

/-- The connectives of conditions. -/
inductive LogicalOp where
  | and
  | or
  | not
  deriving DecidableEq, Repr

/-- How a connective is spelled. -/
def LogicalOp.spelling : LogicalOp → String
  | .and => "&&"
  | .or => "||"
  | .not => "!"

/-- The connective that takes the place of this one under a negation. -/
def LogicalOp.dual : LogicalOp → LogicalOp
  | .and => .or
  | .or => .and
  | .not => .not

/-- Comparisons. -/
inductive ComparisonOp where
  | equal
  | notEqual
  | less
  | lessEqual
  | greater
  | greaterEqual
  deriving DecidableEq, Repr

namespace ComparisonOp

/-- How a comparison is spelled. -/
def spelling : ComparisonOp → String
  | .equal => "=="
  | .notEqual => "!="
  | .less => "<"
  | .lessEqual => "<="
  | .greater => ">"
  | .greaterEqual => ">="

/-- The comparison that holds exactly when this one does not. -/
def invert : ComparisonOp → ComparisonOp
  | .equal => .notEqual
  | .notEqual => .equal
  | .less => .greaterEqual
  | .lessEqual => .greater
  | .greater => .lessEqual
  | .greaterEqual => .less

/-- The comparison that holds when the operands trade places. -/
def reverse : ComparisonOp → ComparisonOp
  | .equal => .equal
  | .notEqual => .notEqual
  | .less => .greater
  | .lessEqual => .greaterEqual
  | .greater => .less
  | .greaterEqual => .lessEqual

/-- Whether a comparison holds of two operands in this order. -/
def holds : ComparisonOp → Ordering → Bool
  | .equal, order => order == .eq
  | .notEqual, order => order != .eq
  | .less, order => order == .lt
  | .lessEqual, order => order != .gt
  | .greater, order => order == .gt
  | .greaterEqual, order => order != .lt

/-- Whether a comparison asks only whether two things are the same. -/
def isEquality : ComparisonOp → Bool
  | .equal | .notEqual => true
  | _ => false

end ComparisonOp

/-- What a script says of a condition beyond its truth. -/
inductive Modifier where
  /-- It has to hold in this many frames. -/
  | repeated (count : UInt32)
  /-- It undoes the progress made. -/
  | never
  /-- It stops progress while it holds. -/
  | unless
  /-- It is what remains to be done. -/
  | triggerWhen
  /-- Its progress is shown. -/
  | measured
  /-- Its frames are taken off a tally. -/
  | deduct
  deriving DecidableEq, Repr

/-- How a rich presence line shows the value of a macro. -/
inductive MacroDisplay where
  /-- As a number. -/
  | value (format : ValueFormat)
  /-- As the text of a key, or a text for all others. -/
  | lookup (entries : List (Int64 × String)) (fallback : String)
  deriving DecidableEq, Repr

/-- What a node carries beside its meaning. -/
structure Mark where
  /-- The text the node was read from. -/
  span : Span := {}
  /-- Whether the node stood in parentheses or was joined from a collection. -/
  unit : Bool := false
  deriving DecidableEq, Repr, Inhabited

/-- Expressions of scripts and their values. -/
inductive Expr where
  /-- An integer. -/
  | integer (mark : Mark) (value : Int64)
  /-- A text. -/
  | text (mark : Mark) (value : String)
  /-- A truth value. -/
  | boolean (mark : Mark) (value : Bool)
  /-- A name. -/
  | var (mark : Mark) (name : String)
  /-- An entry of a dictionary. -/
  | indexed (mark : Mark) (base index : Expr)
  /-- A list of expressions. -/
  | array (mark : Mark) (entries : List Expr)
  /-- Keys with their values, in order. -/
  | dictionary (mark : Mark) (entries : List (Expr × Expr))
  /-- Arithmetic. -/
  | arithmetic (mark : Mark) (op : ArithmeticOp) (left right : Expr)
  /-- A connective. A negation has no left operand and the others have one; a tree where this fails has no meaning. -/
  | logical (mark : Mark) (op : LogicalOp) (left : Option Expr) (right : Expr)
  /-- A comparison. -/
  | comparison (mark : Mark) (op : ComparisonOp) (left right : Expr)
  /-- A call of a function. -/
  | call (mark : Mark) (name : String) (args : List Expr)
  /-- The end of a function with a value. -/
  | returned (mark : Mark) (value : Expr)
  /-- A function used as a value. -/
  | functionRef (mark : Mark) (name : String)
  /-- A read of memory. -/
  | memory (mark : Mark) (read : MemoryRead)
  /-- A modified condition. -/
  | modified (mark : Mark) (modifier : Modifier) (condition : Expr)
  /-- Conditions whose frames count together towards a target. -/
  | tally (mark : Mark) (target : UInt32) (entries : List Expr)
  /-- The condition that always holds. -/
  | alwaysTrue (mark : Mark)
  /-- The condition that never holds. -/
  | alwaysFalse (mark : Mark)
  /-- A named value of a rich presence line. -/
  | presence (mark : Mark) (name : String) (display : MacroDisplay) (value : Expr)
  deriving Inhabited, Repr

namespace Expr

/-- The mark of the root. -/
def mark : Expr → Mark
  | .integer mark _ | .text mark _ | .boolean mark _ | .var mark _ | .indexed mark _ _ | .array mark _
  | .dictionary mark _ | .arithmetic mark _ _ _ | .logical mark _ _ _ | .comparison mark _ _ _ | .call mark _ _
  | .returned mark _ | .functionRef mark _ | .memory mark _ | .modified mark _ _ | .tally mark _ _ | .alwaysTrue mark
  | .alwaysFalse mark | .presence mark _ _ _ => mark

/-- The text that the root was read from. -/
def span (e : Expr) : Span :=
  e.mark.span

/-- Whether the root is marked as one unit of logic. -/
def isUnit (e : Expr) : Bool :=
  e.mark.unit

/-- The same tree with another mark at its root. -/
def withMark (mark : Mark) : Expr → Expr
  | .integer _ value => .integer mark value
  | .text _ value => .text mark value
  | .boolean _ value => .boolean mark value
  | .var _ name => .var mark name
  | .indexed _ base index => .indexed mark base index
  | .array _ entries => .array mark entries
  | .dictionary _ entries => .dictionary mark entries
  | .arithmetic _ op left right => .arithmetic mark op left right
  | .logical _ op left right => .logical mark op left right
  | .comparison _ op left right => .comparison mark op left right
  | .call _ name args => .call mark name args
  | .returned _ value => .returned mark value
  | .functionRef _ name => .functionRef mark name
  | .memory _ read => .memory mark read
  | .modified _ modifier condition => .modified mark modifier condition
  | .tally _ target entries => .tally mark target entries
  | .alwaysTrue _ => .alwaysTrue mark
  | .alwaysFalse _ => .alwaysFalse mark
  | .presence _ name display value => .presence mark name display value

/-- The same tree, marked as one unit of logic. -/
def asUnit (e : Expr) : Expr :=
  e.withMark { e.mark with unit := true }

/-- The negation of a condition, at the place of the condition. -/
def negate (e : Expr) : Expr :=
  .logical { span := e.span } .not none e

/-- The name of the kind of an expression in messages. -/
def kindName : Expr → String
  | .integer .. => "IntegerConstant"
  | .text .. => "StringConstant"
  | .boolean .. => "BooleanConstant"
  | .var .. => "Variable"
  | .indexed .. => "IndexedVariable"
  | .array .. => "Array"
  | .dictionary .. => "Dictionary"
  | .arithmetic .. => "Mathematic"
  | .logical .. => "Conditional"
  | .comparison .. => "Comparison"
  | .call .. => "FunctionCall"
  | .returned .. => "Return"
  | .functionRef .. => "FunctionReference"
  | .memory .. => "MemoryAccessor"
  | .modified .. => "Modifier"
  | .tally .. => "Tally"
  | .alwaysTrue .. => "AlwaysTrue"
  | .alwaysFalse .. => "AlwaysFalse"
  | .presence .. => "RichPresenceMacro"

/-- Whether an expression has a value; only the end of a function has none. -/
def isValue : Expr → Bool
  | .returned .. => false
  | _ => true

/-- Whether an expression is an integer, a text or a truth value. -/
def isConstant : Expr → Bool
  | .integer .. | .text .. | .boolean .. => true
  | _ => false

/-- The text that a constant contributes to a longer text. -/
def constantText? : Expr → Option String
  | .text _ value => some value
  | .integer _ value => some (toString value.toInt)
  | .boolean _ value => some (if value then "true" else "false")
  | _ => none

/-- The truth value of a constant. -/
def truth? : Expr → Option Bool
  | .boolean _ value => some value
  | _ => none

/-- The immediate parts of an expression, in the order they are written. -/
def children : Expr → List Expr
  | .indexed _ base index => [base, index]
  | .array _ entries => entries
  | .dictionary _ entries => entries.flatMap fun (key, value) => [key, value]
  | .arithmetic _ _ left right | .comparison _ _ left right => [left, right]
  | .logical _ _ left right => left.toList ++ [right]
  | .call _ _ args => args
  | .returned _ value => [value]
  | .modified _ _ condition => [condition]
  | .tally _ _ entries => entries
  | .presence _ _ _ value => [value]
  | _ => []

/-- What a loop over an expression visits: the entries of an array or the keys of a dictionary. -/
def items? : Expr → Option (List Expr)
  | .array _ entries => some entries
  | .dictionary _ entries => some (entries.map (·.1))
  | _ => none

mutual

/-- Whether no name, call or returned value is left anywhere in a tree. -/
def isReduced : Expr → Bool
  | .var .. | .indexed .. | .call .. | .returned .. => false
  | .array _ entries | .tally _ _ entries => allReduced entries
  | .dictionary _ entries => entriesReduced entries
  | .arithmetic _ _ left right | .comparison _ _ left right => left.isReduced && right.isReduced
  | .logical _ _ (some left) right => left.isReduced && right.isReduced
  | .logical _ _ none right => right.isReduced
  | .modified _ _ condition => condition.isReduced
  | .presence _ _ _ value => value.isReduced
  | .integer .. | .text .. | .boolean .. | .functionRef .. | .memory .. | .alwaysTrue .. | .alwaysFalse .. => true

/-- Whether every tree of a list is reduced. -/
def allReduced : List Expr → Bool
  | [] => true
  | e :: es => e.isReduced && allReduced es

/-- Whether every key and value of a dictionary is reduced. -/
def entriesReduced : List (Expr × Expr) → Bool
  | [] => true
  | (key, value) :: entries => key.isReduced && value.isReduced && entriesReduced entries

end

mutual

/-- Whether two trees differ in marks only. -/
def same : Expr → Expr → Bool
  | .integer _ a, .integer _ b => a == b
  | .text _ a, .text _ b => a == b
  | .boolean _ a, .boolean _ b => a == b
  | .var _ a, .var _ b => a == b
  | .indexed _ base index, .indexed _ base' index' => base.same base' && index.same index'
  | .array _ es, .array _ es' => allSame es es'
  | .dictionary _ es, .dictionary _ es' => entriesSame es es'
  | .arithmetic _ op left right, .arithmetic _ op' left' right' => op == op' && left.same left' && right.same right'
  | .logical _ op left right, .logical _ op' left' right' => op == op' && optionSame left left' && right.same right'
  | .comparison _ op left right, .comparison _ op' left' right' => op == op' && left.same left' && right.same right'
  | .call _ name args, .call _ name' args' => name == name' && allSame args args'
  | .returned _ value, .returned _ value' => value.same value'
  | .functionRef _ a, .functionRef _ b => a == b
  | .memory _ a, .memory _ b => a == b
  | .modified _ modifier condition, .modified _ modifier' condition' =>
    modifier == modifier' && condition.same condition'
  | .tally _ target es, .tally _ target' es' => target == target' && allSame es es'
  | .alwaysTrue _, .alwaysTrue _ => true
  | .alwaysFalse _, .alwaysFalse _ => true
  | .presence _ name display value, .presence _ name' display' value' =>
    name == name' && display == display' && value.same value'
  | _, _ => false

/-- Whether two operands that may be missing differ in marks only. -/
def optionSame : Option Expr → Option Expr → Bool
  | none, none => true
  | some e, some e' => e.same e'
  | _, _ => false

/-- Whether two lists hold the same trees in the same order. -/
def allSame : List Expr → List Expr → Bool
  | [], [] => true
  | e :: es, e' :: es' => e.same e' && allSame es es'
  | _, _ => false

/-- Whether two dictionaries hold the same keys and values in the same order. -/
def entriesSame : List (Expr × Expr) → List (Expr × Expr) → Bool
  | [], [] => true
  | (key, value) :: es, (key', value') :: es' => key.same key' && value.same value' && entriesSame es es'
  | _, _ => false

end

/-- The negation of a condition, pushed as far into the tree as it will go. -/
def invert : Expr → Expr
  | .comparison mark op left right => .comparison mark op.invert left right
  | .logical mark .and (some left) right => .logical mark .or (some left.invert) right.invert
  | .logical mark .or (some left) right => .logical mark .and (some left.invert) right.invert
  | .logical _ .not _ right => right
  | .boolean mark value => .boolean mark !value
  | .alwaysTrue mark => .alwaysFalse mark
  | .alwaysFalse mark => .alwaysTrue mark
  | e => e.negate

/-- Whether an expression is a memory read or arithmetic on one. -/
def readsMemory : Expr → Bool
  | .memory .. => true
  | .arithmetic _ _ left right => left.readsMemory || right.readsMemory
  | _ => false

/-- Whether an expression is an integer or arithmetic on memory. -/
def isNumeric : Expr → Bool
  | .integer .. => true
  | e => e.readsMemory

/-- Whether an expression may be the operand of a connective. -/
def isOperand : Expr → Bool
  | .integer .. | .text .. | .array .. | .dictionary .. | .functionRef .. | .memory .. | .arithmetic ..
  | .presence .. => false
  | _ => true

/-- Whether an evaluated expression is a condition. -/
def isCondition : Expr → Bool
  | .comparison .. | .logical .. | .modified .. | .tally .. | .boolean .. | .alwaysTrue .. | .alwaysFalse .. => true
  | _ => false

end Expr

/-- The value under a key that is the same as one of the keys. -/
def findValue? (key : Expr) : List (Expr × Expr) → Option Expr
  | [] => none
  | (candidate, value) :: entries => if candidate.same key then some value else findValue? key entries

end TriggerScript
