import TriggerScript.Error
import TriggerScript.Number

/-!
# Folding

What an operator makes of evaluated operands. Constants are computed; operands that depend on memory stay as they are if
they fit the operator. Errors are reported for the expression as it was written.
-/

namespace TriggerScript.Fold

/-- Arithmetic on integers; nothing if the result does not fit. Quotients are cut towards zero, and a remainder has the
sign of the left operand. -/
def integers (op : ArithmeticOp) (a b : Int) : Option Int64 :=
  match op with
  | .add => int64? (a + b)
  | .subtract => int64? (a - b)
  | .multiply => int64? (a * b)
  | .divide => int64? (a.tdiv b)
  | .modulus => if (int64? (a.tdiv b)).isSome then int64? (a.tmod b) else none

/-- Operands that an operator does not take. -/
def incompatible (whole : Expr) (op : String) (left right : Expr) : Error :=
  .causedBy (.incompatible op left.kindName right.kindName) whole.span whole

/-- Whether an operator takes two operands as texts: a sum of anything with a text is one. -/
def joinsTexts : ArithmeticOp → Expr → Expr → Bool
  | .add, .text .., _ => true
  | .add, _, .text .. => true
  | _, _, _ => false

/-- Two texts joined. -/
def texts (whole left right : Expr) : Except Error Expr :=
  match left.constantText?, right.constantText? with
  | some a, some b => .ok (.text whole.mark (a ++ b))
  | _, _ => .error (incompatible whole "+" left right)

/-- Arithmetic on evaluated operands. -/
def arithmetic (whole : Expr) (op : ArithmeticOp) (left right : Expr) : Except Error Expr :=
  match left, right with
  | .integer _ a, .integer mark b =>
    if (op = .divide ∨ op = .modulus) ∧ b = 0 then
      .error (.causedBy .divisionByZero mark.span whole)
    else
      match integers op a.toInt b.toInt with
      | some value => .ok (.integer whole.mark value)
      | none => .error (.causedBy .overflow whole.span whole)
  | left, right =>
    if joinsTexts op left right then texts whole left right
    else if (left.readsMemory || right.readsMemory) && left.isNumeric && right.isNumeric then
      .ok (.arithmetic whole.mark op left right)
    else .error (incompatible whole op.spelling left right)

/-- A comparison of operands of which neither is a constant that decides it alone. -/
def openComparison (whole : Expr) (op : ComparisonOp) (left right : Expr) : Except Error Expr :=
  if left.readsMemory || right.readsMemory then
    if left.isNumeric && right.isNumeric then .ok (.comparison whole.mark op left right)
    else .error (incompatible whole op.spelling left right)
  else if !left.isConstant && !right.isConstant && op.isEquality then
    .ok (.boolean whole.mark (left.same right == (op = .equal)))
  else .error (incompatible whole op.spelling left right)

/-- A comparison of evaluated operands. Truth values are only equal or not. -/
def comparison (whole : Expr) (op : ComparisonOp) (left right : Expr) : Except Error Expr :=
  match left, right with
  | .integer _ a, .integer _ b => .ok (.boolean whole.mark (op.holds (compare a.toInt b.toInt)))
  | .text _ a, .text _ b => .ok (.boolean whole.mark (op.holds (compare a b)))
  | .boolean _ a, .boolean _ b =>
    if op.isEquality then .ok (.boolean whole.mark ((a == b) == (op = .equal)))
    else openComparison whole op left right
  | left, right => openComparison whole op left right

/-- Refuses an operand that is no condition. -/
def checkOperand (whole : Expr) (op : LogicalOp) (operand : Expr) : Except Error Unit :=
  if operand.isOperand then .ok ()
  else .error (.causedBy (.notOperand op operand.kindName) operand.span whole)

/-- A negation of an evaluated operand. -/
def negation (whole right : Expr) : Expr :=
  match right.truth? with
  | some value => .boolean whole.mark !value
  | none => .logical whole.mark .not none right

/-- Two operands joined by a connective: the constant `absorbing` decides it, and the other constant drops out. -/
def connect (absorbing : Bool) (decided joined left right : Expr) : Expr :=
  match left.truth?, right.truth? with
  | some a, some b => if a = absorbing || b = absorbing then decided else right
  | some a, none => if a = absorbing then decided else right
  | none, some b => if b = absorbing then decided else left
  | none, none => joined

/-- A connective of evaluated operands. -/
def logical (whole : Expr) (op : LogicalOp) (left? : Option Expr) (right : Expr) : Except Error Expr := do
  if let some left := left? then
    checkOperand whole op left
  checkOperand whole op right
  match op, left? with
  | .not, _ => return negation whole right
  | _, none => throw (.evaluation .missingLeft whole.span)
  | op, some left =>
    let absorbing := op = .or
    return connect absorbing (.boolean whole.mark absorbing) (.logical whole.mark op (some left) right) left right

end TriggerScript.Fold
