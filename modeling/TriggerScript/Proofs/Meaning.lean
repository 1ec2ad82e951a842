import TriggerScript.Trigger.Lower

/-!
# What conditions mean

A state of the memory gives every read a number. In a state, an evaluated expression denotes a number or a truth value over
exact integers, and a group of conditions is worked through from left to right: sources are summed up for the next
comparison, links carry the value of a chain on to its next condition, and the group holds if every chain does. What needs
more than one state (hit counts and the flags of resets, pauses and measurements) has no meaning here.
-/

namespace TriggerScript

/-- A state of the memory: the number at every read. -/
abbrev MemoryState := MemoryRead → Nat

/-! ## Comparisons

The outcome of a comparison is computed from an `Ordering`. What it means is said by the order of what is compared.
-/

namespace ComparisonOp

variable {α : Type} [DecidableEq α] [LT α] [LE α] [DecidableLT α] [DecidableLE α]

/-- Whether a comparison relates two things of an ordered type. -/
def relates (op : ComparisonOp) (a b : α) : Bool :=
  match op with
  | .equal => a = b
  | .notEqual => a ≠ b
  | .less => a < b
  | .lessEqual => a ≤ b
  | .greater => b < a
  | .greaterEqual => b ≤ a

variable [Ord α] [Std.LawfulEqOrd α] [Std.LawfulOrderOrd α] [Std.LawfulOrderLT α]

/-- What is computed from the outcome of `compare` is what the order says. -/
theorem holds_compare (op : ComparisonOp) (a b : α) : op.holds (compare a b) = op.relates a b := by
  have heq : compare a b = .eq ↔ a = b := Std.LawfulEqOrd.compare_eq_iff_eq
  have hlt : compare a b = .lt ↔ a < b := Std.compare_eq_lt
  have hgt : compare a b = .gt ↔ b < a := Std.compare_eq_gt
  have hle : compare a b ≠ .gt ↔ a ≤ b := Ordering.isLE_iff_ne_gt.symm.trans Std.isLE_compare
  have hge : compare a b ≠ .lt ↔ b ≤ a := Ordering.isGE_iff_ne_lt.symm.trans Std.isGE_compare
  rw [Bool.eq_iff_iff]
  cases op with
  | equal => simpa only [holds, relates, beq_iff_eq, decide_eq_true_iff] using heq
  | notEqual => simpa only [holds, relates, bne_iff_ne, decide_eq_true_iff] using not_congr heq
  | less => simpa only [holds, relates, beq_iff_eq, decide_eq_true_iff] using hlt
  | lessEqual => simpa only [holds, relates, bne_iff_ne, decide_eq_true_iff] using hle
  | greater => simpa only [holds, relates, beq_iff_eq, decide_eq_true_iff] using hgt
  | greaterEqual => simpa only [holds, relates, bne_iff_ne, decide_eq_true_iff] using hge

end ComparisonOp

/-- Texts are compared in their lexicographic order. -/
instance lawfulOrderOrdString : Std.LawfulOrderOrd String where
  isLE_compare _ _ := isLE_compareOfLessAndEq String.le_antisymm String.not_le String.le_total
  isGE_compare _ _ := isGE_compareOfLessAndEq String.le_antisymm String.not_le String.le_total

/-! ## Expressions -/

/-- Arithmetic on exact integers; there is no quotient and no remainder by zero. -/
def ArithmeticOp.result? (op : ArithmeticOp) (a b : Int) : Option Int :=
  match op with
  | .add => some (a + b)
  | .subtract => some (a - b)
  | .multiply => some (a * b)
  | .divide => if b = 0 then none else some (a.tdiv b)
  | .modulus => if b = 0 then none else some (a.tmod b)

namespace Expr

/-- The number that an expression denotes in a state, if it is arithmetic on memory and integers. -/
def numberIn? (m : MemoryState) : Expr → Option Int
  | .integer _ value => some value.toInt
  | .memory _ read => some (m read)
  | .arithmetic _ op left right => do op.result? (← left.numberIn? m) (← right.numberIn? m)
  | _ => none

/-- The truth of a condition in a state, if it is built from comparisons of numbers and truth values by connectives. -/
def truthIn? (m : MemoryState) : Expr → Option Bool
  | .comparison _ op left right => do return op.relates (← left.numberIn? m) (← right.numberIn? m)
  | .boolean _ value => some value
  | .alwaysTrue _ => some true
  | .alwaysFalse _ => some false
  | .logical _ .not none right => do return !(← right.truthIn? m)
  | .logical _ .and (some left) right => do return (← left.truthIn? m) && (← right.truthIn? m)
  | .logical _ .or (some left) right => do return (← left.truthIn? m) || (← right.truthIn? m)
  | _ => none

/-- Whether a condition is built from comparisons, truth values and the two fixed conditions by connectives alone. -/
def isUnmodified : Expr → Bool
  | .comparison .. | .boolean .. | .alwaysTrue .. | .alwaysFalse .. => true
  | .logical _ .not none right => right.isUnmodified
  | .logical _ .and (some left) right => left.isUnmodified && right.isUnmodified
  | .logical _ .or (some left) right => left.isUnmodified && right.isUnmodified
  | _ => false

end Expr

/-! ## Groups and triggers -/

/-- The number that an operand denotes in a state. -/
def Operand.numberIn (m : MemoryState) : Operand → Int
  | .memory read => m read
  | .number value => value.toNat

namespace Condition

/-- What a source gives to the next comparison, before its sign. -/
def sourceNumber (m : MemoryState) (condition : Condition) : Int :=
  match condition.right? with
  | some (.multiply, factor) => condition.left.numberIn m * factor.numberIn m
  | some (.divide, factor) => (condition.left.numberIn m).tdiv (factor.numberIn m)
  | _ => condition.left.numberIn m

/-- Whether the comparison of a condition holds, given the sum of the sources before it. -/
def compares (m : MemoryState) (sum : Int) (condition : Condition) : Bool :=
  match condition.right? with
  | some (.compare op, right) => op.relates (sum + condition.left.numberIn m) (right.numberIn m)
  | _ => false

end Condition

/-- The connectives that join two conditions. -/
inductive Connective where
  /-- Both have to hold. -/
  | all
  /-- One of them has to hold. -/
  | any
  deriving DecidableEq, Repr

/-- The truth of two conditions that a connective joins. -/
def Connective.combine : Connective → Bool → Bool → Bool
  | .all, a, b => a && b
  | .any, a, b => a || b

/-- What a chain of linked conditions has come to before its next condition. -/
inductive Running where
  /-- The next condition begins a chain. -/
  | start
  /-- The next condition is joined to a chain with this value. -/
  | linked (c : Connective) (value : Bool)

/-- The value of a chain after its next condition. -/
def Running.join : Running → Bool → Bool
  | .start, value => value
  | .linked c before, value => c.combine before value

/-- Whether the chains of a group hold, given the sum of the sources read last and the value of the open chain. -/
def groupFrom (m : MemoryState) : Int → Running → List Condition → Option Bool
  | _, .start, [] => some true
  | _, .linked .., [] => none
  | sum, running, condition :: conditions =>
    if condition.hits ≠ 0 then none
    else
      match condition.flag with
      | .addSource => groupFrom m (sum + condition.sourceNumber m) running conditions
      | .subSource => groupFrom m (sum - condition.sourceNumber m) running conditions
      | .andNext => groupFrom m 0 (.linked .all (running.join (condition.compares m sum))) conditions
      | .orNext => groupFrom m 0 (.linked .any (running.join (condition.compares m sum))) conditions
      | .plain => (groupFrom m 0 .start conditions).map (running.join (condition.compares m sum) && ·)
      | _ => none

/-- Whether a group holds in a state. -/
def groupTruthIn? (m : MemoryState) (group : List Condition) : Option Bool :=
  groupFrom m 0 .start group

/-- Whether a trigger holds in a state: its core does and, if it has alternatives, one of them. -/
def Trigger.truthIn? (m : MemoryState) (trigger : Trigger) : Option Bool := do
  let core ← groupTruthIn? m trigger.core
  let alternatives ← trigger.alternatives.mapM (groupTruthIn? m)
  return core && (alternatives.isEmpty || alternatives.any id)

end TriggerScript
