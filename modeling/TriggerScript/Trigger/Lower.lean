import TriggerScript.Trigger
import TriggerScript.Value.Lower

/-!
# Lowering conditions

An evaluated condition becomes a trigger. Its conjunction is split into clauses; the first clause that is a disjunction
gives the alternative groups, and every other clause becomes conditions of the core. Inside a clause, connectives link
conditions to the next one, and modifiers and tallies set flags and hit counts.
-/

namespace TriggerScript

namespace Expr

/-- Whether an expression joins two operands with this connective. -/
def joinsWith (op : LogicalOp) : Expr → Bool
  | .logical _ op' (some _) _ => op' = op
  | _ => false

/-- Whether an expression is a negation. -/
def isNegation : Expr → Bool
  | .logical _ .not _ _ => true
  | _ => false

/-- The parts that a connective joins in a condition, or in its negation. A negated chain of the dual connective counts as
a chain of negated parts. -/
def parts (op : LogicalOp) : (negated : Bool) → Expr → List Expr
  | false, .logical _ .not _ right => if right.invert.joinsWith op then parts op true right else [right.invert]
  | false, .logical mark op' (some left) right =>
    if op' = op then parts op false left ++ parts op false right else [.logical mark op' (some left) right]
  | false, e => [e]
  | true, .logical _ .not _ right => parts op false right
  | true, .logical mark op' (some left) right =>
    if op'.dual = op then parts op true left ++ parts op true right
    else [(Expr.logical mark op' (some left) right).invert]
  | true, e => [e.invert]

mutual

/-- The number of connectives, modifiers and tallies that a condition is built from. -/
def weight : Expr → Nat
  | .logical _ .not _ right => right.weight
  | .logical _ _ (some left) right => left.weight + right.weight + 1
  | .logical _ _ none right => right.weight
  | .modified _ _ condition => condition.weight + 1
  | .tally _ _ entries => listWeight entries + 1
  | _ => 0

/-- The weight of a list of conditions. -/
def listWeight : List Expr → Nat
  | [] => 0
  | e :: es => e.weight + listWeight es

end

end Expr

namespace SumTerm

/-- Whether a memory read is neither subtracted nor scaled. -/
def isPlain (term : SumTerm) : Bool :=
  !term.negative && term.scaling = .none

/-- The condition that adds a memory read to the next one, or subtracts it. -/
def source (term : SumTerm) : Condition :=
  let scale : Option (Operator × Operand) := match term.scaling with
    | .none => none
    | .multiply factor => some (.multiply, .number factor)
    | .divide factor => some (.divide, .number factor)
  { flag := if term.negative then .subSource else .addSource, left := .memory term.read, right? := scale }

/-- The last plain memory read of a sum, and the other terms in order. -/
def lastPlain? : List SumTerm → Option (MemoryRead × List SumTerm)
  | [] => none
  | term :: terms =>
    match lastPlain? terms with
    | some (read, others) => some (read, term :: others)
    | none => if term.isPlain then some (term.read, terms) else none

end SumTerm

namespace Lowering

/-- The number that a comparison is made with. -/
def numberOperand (e : Expr) (value : Int64) : Except Error Operand :=
  if value < 0 then .error (.lowering (.negativeNumber value) e)
  else
    match uint32? value.toInt with
    | some number => .ok (.number number)
    | none => .error (.lowering (.numberTooLarge value) e)

/-- The right operand of a comparison whose left side adds a constant to memory reads: the constant is taken off a number,
and a memory read is compared only if there is no constant. -/
def rightOperand (e left right : Expr) (offset : Int64) : Except Error Operand :=
  match right with
  | .integer _ value =>
    match int64? (value.toInt - offset.toInt) with
    | some adjusted => numberOperand e adjusted
    | none => .error (.lowering .comparisonOverflow e)
  | .memory _ read =>
    if offset = 0 then .ok (.memory read) else .error (.lowering (.notComparable left right) e)
  | _ => .error (.lowering (.notComparable left right) e)

/-- The conditions of a comparison with a sum on its left side: sources for all memory reads but the last plain one, which
is compared itself. -/
def sumComparison (e : Expr) (op : ComparisonOp) (left right : Expr) : Except Error (List Condition) := do
  let sum ← LinearSum.ofExpr left
  if sum.terms.isEmpty then
    throw (.lowering (.noMemory e) e)
  else
    let operand ← rightOperand e left right sum.offset
    match SumTerm.lastPlain? sum.terms with
    | some (read, others) =>
      return others.map SumTerm.source ++ [.comparison (.memory read) op operand]
    | none => return sum.terms.map SumTerm.source ++ [.comparison (.number 0) op operand]

/-- The conditions of a comparison. A constant on the left trades places with the right. -/
def comparison (e : Expr) (op : ComparisonOp) (left right : Expr) : Except Error (List Condition) :=
  if left.isConstant && !right.isConstant then sumComparison e op.reverse right left else sumComparison e op left right

/-- Puts a flag on the last of the conditions that an expression lowered to. -/
def flagLast (flag : Flag) (e : Expr) (conditions : List Condition) : Except Error (List Condition) :=
  match conditions.getLast? with
  | none => .error (.lowering .noConditions e)
  | some last =>
    if last.flag = .plain then .ok (conditions.dropLast ++ [{ last with flag }])
    else .error (.lowering (.flagTaken last.flag flag) e)

/-- Puts a hit count on the last of the conditions that an expression lowered to. -/
def countLast (hits : UInt32) (e : Expr) (conditions : List Condition) : Except Error (List Condition) :=
  match conditions.getLast? with
  | none => .error (.lowering .noConditions e)
  | some last =>
    if last.hits = 0 then .ok (conditions.dropLast ++ [{ last with hits }])
    else .error (.lowering .hitsTaken e)

/-- The condition that a part of a repeated condition undoes it with. -/
def reset? : Expr → Option Expr
  | .modified _ .never condition => some condition
  | _ => none

/-- The condition that an entry takes off a tally. -/
def deduction? : Expr → Option Expr
  | .modified _ .deduct condition => some condition
  | _ => none

/-- The flag that links a condition to the next one of a connective. -/
def link : LogicalOp → Flag
  | .and => .andNext
  | _ => .orNext

section Clauses

variable (lower : Expr → Except Error (List Condition))

/-- Lowers conditions one after the other. -/
def all : List Expr → Except Error (List Condition)
  | [] => .ok []
  | e :: es => do
    let first ← lower e
    let others ← all es
    return first ++ others

/-- Lowers conditions one after the other, each with a flag on its last line. -/
def allFlagged (flag : Flag) : List Expr → Except Error (List Condition)
  | [] => .ok []
  | e :: es => do
    let first ← flagLast flag e (← lower e)
    let others ← allFlagged flag es
    return first ++ others

/-- Lowers conditions that are linked by a flag on each but the last. -/
def chain (flag : Flag) : List Expr → Except Error (List Condition)
  | [] => .ok []
  | [e] => lower e
  | e :: es => do
    let first ← flagLast flag e (← lower e)
    let others ← chain flag es
    return first ++ others

/-- Lowers a condition that a flag marks as a whole. Each part of a disjunction that resets or pauses does so on its own. -/
def flagged (flag : Flag) (condition : Expr) : Except Error (List Condition) :=
  if (flag = .resetIf || flag = .pauseIf) && condition.joinsWith .or then
    allFlagged lower flag (condition.parts .or false)
  else
    allFlagged lower flag [condition]

/-- Lowers a conjunction that is counted as a whole. Its resets come first and reset the count only. -/
def countedConjunction (condition : Expr) : Except Error (List Condition) := do
  let parts := condition.parts .and false
  let counted := parts.filter fun part => (reset? part).isNone
  let resets ← allFlagged lower .resetNextIf (parts.filterMap reset?)
  if counted.isEmpty then
    throw (.lowering .onlyResets condition)
  else
    return resets ++ (← chain lower .andNext counted)

/-- Lowers a condition whose frames are counted. The parts of a disjunction add up their frames. -/
def counted (condition : Expr) : Except Error (List Condition) :=
  if condition.joinsWith .and then countedConjunction lower condition
  else if condition.joinsWith .or then chain lower .addHits (condition.parts .or false)
  else lower condition

/-- Lowers a condition that has to hold in a number of frames. -/
def repeated (count : UInt32) (condition : Expr) : Except Error (List Condition) := do
  countLast count condition (← counted lower condition)

/-- Lowers a tally: the conditions that add frames, those that take frames off, and the one that carries the target. -/
def tally (e : Expr) (target : UInt32) (entries : List Expr) : Except Error (List Condition) := do
  let counted := entries.filter fun entry => (deduction? entry).isNone
  match counted.getLast? with
  | none => throw (.lowering .onlyDeductions e)
  | some last =>
    let added ← allFlagged lower .addHits counted.dropLast
    let deducted ← allFlagged lower .subHits (entries.filterMap deduction?)
    let final ← countLast target last (← lower last)
    return added ++ deducted ++ final

/-- Lowers a modified condition. -/
def modified (e : Expr) (modifier : Modifier) (condition : Expr) : Except Error (List Condition) :=
  match modifier with
  | .repeated count => repeated lower count condition
  | .never => flagged lower .resetIf condition
  | .unless => flagged lower .pauseIf condition
  | .triggerWhen => flagged lower .trigger condition
  | .measured => flagged lower .measured condition
  | .deduct => .error (.lowering .deductOutsideTally e)

/-- Lowers a condition, given how to lower smaller ones. -/
def step (e : Expr) : Except Error (List Condition) :=
  match e with
  | .comparison _ op left right => comparison e op left right
  | .boolean _ value => .ok [if value then .always else .never]
  | .alwaysTrue _ => .ok [.always]
  | .alwaysFalse _ => .ok [.never]
  | .logical _ .not _ right =>
    if right.invert.isNegation then .error (.lowering (.notInvertible right.kindName) e) else lower right.invert
  | .logical _ op (some _) _ => chain lower (link op) (e.parts op false)
  | .logical _ _ none _ => .error (.lowering .missingLeft e)
  | .modified _ modifier condition => modified lower e modifier condition
  | .tally _ target entries => tally lower e target entries
  | _ => .error (.lowering (.notCondition e) e)

end Clauses

/-- Lowers a condition in at most a number of steps into its parts. -/
def clauseWithin : Nat → Expr → Except Error (List Condition)
  | 0, e => .error (.lowering .missingLeft e)
  | bound + 1, e => step (clauseWithin bound) e

/-- Lowers a condition to one group. Every second step goes into a part of less weight, so the weight bounds the steps. -/
def clause (e : Expr) : Except Error (List Condition) :=
  clauseWithin (2 * e.weight + 2) e

/-- The alternative groups of a disjunction. -/
def alternatives : List Expr → Except Error (List (List Condition))
  | [] => .ok []
  | branch :: branches => do
    let group ← all clause (branch.parts .and false)
    let groups ← alternatives branches
    return group :: groups

end Lowering

/-- Lowers an evaluated condition to a trigger. -/
def Trigger.ofExpr (e : Expr) : Except Error Trigger := do
  let clauses := e.parts .and false
  let core ← Lowering.all Lowering.clause (clauses.eraseP (·.joinsWith .or))
  match clauses.find? (·.joinsWith .or) with
  | none => return { core }
  | some disjunction =>
    let alternatives ← Lowering.alternatives (disjunction.parts .or false)
    return { core := if core.isEmpty then [.always] else core, alternatives }

end TriggerScript
