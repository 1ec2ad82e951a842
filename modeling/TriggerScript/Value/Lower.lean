import TriggerScript.Error
import TriggerScript.Number
import TriggerScript.Value

/-!
# Lowering sums

An evaluated number is a sum of memory reads, each of them scaled or not, and of constants. A value keeps the terms and one
constant.
-/

namespace TriggerScript

/-- How a memory read is scaled in a sum. -/
inductive Scaling where
  | none
  | multiply (factor : UInt32)
  | divide (factor : UInt32)
  deriving DecidableEq, Repr

/-- A memory read in a sum. -/
structure SumTerm where
  /-- What is read. -/
  read : MemoryRead
  /-- Whether it is subtracted. -/
  negative : Bool
  /-- How it is scaled. -/
  scaling : Scaling
  deriving DecidableEq, Repr

/-- The memory reads of a sum and the sum of its constants. -/
structure LinearSum where
  /-- The terms with a memory read. -/
  terms : List SumTerm := []
  /-- The sum of the constants. -/
  offset : Int64 := 0
  deriving DecidableEq, Repr

namespace LinearSum

/-- Adds a constant. -/
def addConstant (e : Expr) (negative : Bool) (value : Int64) (sum : LinearSum) : Except Error LinearSum :=
  let delta? := if negative then int64? (-value.toInt) else some value
  match delta?.bind fun delta => int64? (sum.offset.toInt + delta.toInt) with
  | some offset => .ok { sum with offset }
  | none => .error (.evaluation (.lowering .sumOverflow) e.span)

/-- Adds a memory read. -/
def addTerm (term : SumTerm) (sum : LinearSum) : LinearSum :=
  { sum with terms := sum.terms ++ [term] }

/-- The memory read and the number of a product or quotient; a number comes first only in a product. -/
def scaledRead? (op : ArithmeticOp) : Expr → Expr → Option (MemoryRead × Int64)
  | .memory _ read, .integer _ factor => some (read, factor)
  | .integer _ factor, .memory _ read => if op = .multiply then some (read, factor) else none
  | _, _ => none

/-- Adds a product or quotient of a memory read and a number. -/
def addScaled (e : Expr) (negative : Bool) (op : ArithmeticOp) (left right : Expr) (sum : LinearSum) :
    Except Error LinearSum :=
  match scaledRead? op left right with
  | none => .error (.lowering (.notSum e) e)
  | some (read, factor) =>
    if op = .divide ∧ factor = 0 then .error (.evaluation (.lowering .divisionByZero) e.span)
    else
      match uint32? factor.toInt with
      | none => .error (.lowering (.invalidScale factor) e)
      | some factor =>
        let scaling := if op = .multiply then .multiply factor else .divide factor
        .ok (sum.addTerm { read, negative, scaling })

/-- Adds an evaluated number, or subtracts it. -/
def addExpr (negative : Bool) (sum : LinearSum) : Expr → Except Error LinearSum
  | .integer mark value => sum.addConstant (.integer mark value) negative value
  | .memory _ read => .ok (sum.addTerm { read, negative, scaling := .none })
  | .arithmetic _ .add left right => do (← sum.addExpr negative left).addExpr negative right
  | .arithmetic _ .subtract left right => do (← sum.addExpr negative left).addExpr (!negative) right
  | .arithmetic mark .multiply left right =>
    sum.addScaled (.arithmetic mark .multiply left right) negative .multiply left right
  | .arithmetic mark .divide left right =>
    sum.addScaled (.arithmetic mark .divide left right) negative .divide left right
  | e => .error (.lowering (.notSum e) e)

/-- The sum that an evaluated number is. -/
def ofExpr (e : Expr) : Except Error LinearSum :=
  ({} : LinearSum).addExpr false e

end LinearSum

/-- The term of a value for a memory read in a sum; quotients have none. -/
def SumTerm.valueTerm? (term : SumTerm) : Option ValueTerm :=
  let factor? : Option UInt32 := match term.scaling with
    | .none => some 1
    | .multiply factor => some factor
    | .divide _ => none
  factor?.map fun factor =>
    let factor := Int64.ofNat factor.toNat
    .scaled (.memory term.read) (if term.negative then -factor else factor)

/-- Lowers an evaluated number to a value; a constant of zero is kept only if there is nothing else. -/
def Value.ofExpr (e : Expr) : Except Error Value := do
  let sum ← LinearSum.ofExpr e
  match sum.terms.mapM SumTerm.valueTerm? with
  | none => throw (.lowering .divisionInValue e)
  | some terms =>
    if sum.offset ≠ 0 ∨ terms.isEmpty then
      return { terms := terms ++ [.constant sum.offset] }
    else
      return { terms }

end TriggerScript
