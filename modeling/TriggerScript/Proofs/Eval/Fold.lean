import TriggerScript.Eval.Fold
import TriggerScript.Proofs.Outcome

/-!
# What folding makes

An operator that is folded without an error was computed, was decided by its kinds of operands, or stays because an operand
reads memory. Each operator has one statement here that tells these cases apart, and one that its errors report no variable
that depends on itself; later proofs do not look into folding.
-/

namespace TriggerScript

namespace Expr

/-- A number that reads no memory is an integer. -/
theorem eq_integer_of_isNumeric {e : Expr} (h : e.isNumeric = true) (hreads : e.readsMemory = false) :
    ∃ mark value, e = .integer mark value := by
  cases e with
  | integer mark value => exact ⟨mark, value, rfl⟩
  | _ =>
    rw [isNumeric, hreads] at h
    · cases h
    · intro mark value heq
      cases heq

/-- Numbers read memory, or they are integers. -/
theorem readsMemory_or_integers {left right : Expr} (hleft : left.isNumeric = true) (hright : right.isNumeric = true) :
    (left.readsMemory = true ∨ right.readsMemory = true) ∨
      ∃ mark a mark' b, left = .integer mark a ∧ right = .integer mark' b := by
  by_cases hreads : left.readsMemory = true ∨ right.readsMemory = true
  · exact .inl hreads
  · rw [not_or, Bool.not_eq_true, Bool.not_eq_true] at hreads
    obtain ⟨mark, a, hleft⟩ := eq_integer_of_isNumeric hleft hreads.1
    obtain ⟨mark', b, hright⟩ := eq_integer_of_isNumeric hright hreads.2
    exact .inr ⟨mark, a, mark', b, hleft, hright⟩

/-- A condition may be an operand. -/
theorem isOperand_of_isCondition {e : Expr} (h : e.isCondition = true) : e.isOperand = true := by
  cases e with
  | comparison | logical | modified | tally | boolean | alwaysTrue | alwaysFalse => rfl
  | _ => cases h

/-- The truth value of a constant is all there is to it. -/
theorem eq_boolean_of_truth? {e : Expr} {value : Bool} (h : e.truth? = some value) : ∃ mark, e = .boolean mark value := by
  cases e with
  | boolean mark value' =>
    obtain rfl := Option.some.inj h
    exact ⟨mark, rfl⟩
  | _ => cases h

end Expr

namespace Fold

variable {whole left right v : Expr}

/-- A number is not joined as a text. -/
theorem joinsTexts_of_isNumeric (op : ArithmeticOp) (hleft : left.isNumeric = true) (hright : right.isNumeric = true) :
    joinsTexts op left right = false := by
  cases op with
  | add =>
    cases left with
    | text => cases hleft
    | _ =>
      cases right with
      | text => cases hright
      | _ => rfl
  | _ => cases left <;> cases right <;> rfl

/-- Arithmetic computes two integers, joins texts, or stays over memory. -/
theorem arithmetic_cases {op : ArithmeticOp} (h : arithmetic whole op left right = .ok v) :
    (∃ mark a mark' b value, left = .integer mark a ∧ right = .integer mark' b ∧
        (op = .divide ∨ op = .modulus → b ≠ 0) ∧ integers op a.toInt b.toInt = some value ∧
        v = .integer whole.mark value) ∨
      (∃ text, joinsTexts op left right = true ∧ v = .text whole.mark text) ∨
      ((left.readsMemory = true ∨ right.readsMemory = true) ∧ left.isNumeric = true ∧ right.isNumeric = true ∧
        v = .arithmetic whole.mark op left right) := by
  unfold arithmetic at h
  split at h
  · rename_i mark a mark' b
    split at h
    · cases h
    · rename_i hzero
      split at h
      · rename_i value hvalue
        obtain rfl := Except.ok.inj h
        exact .inl ⟨mark, a, mark', b, value, rfl, rfl, fun hop hb => hzero ⟨hop, hb⟩, hvalue, rfl⟩
      · cases h
  · split at h
    · rename_i htexts
      unfold texts at h
      split at h
      · obtain rfl := Except.ok.inj h
        exact .inr (.inl ⟨_, htexts, rfl⟩)
      · cases h
    · split at h
      · rename_i hmemory
        obtain rfl := Except.ok.inj h
        simp only [Bool.and_eq_true, Bool.or_eq_true] at hmemory
        exact .inr (.inr ⟨hmemory.1.1, hmemory.1.2, hmemory.2, rfl⟩)
      · cases h

/-- A comparison of other things than two constants stays over memory, or asks whether two things are the same. -/
theorem openComparison_cases {op : ComparisonOp} (h : openComparison whole op left right = .ok v) :
    ((left.readsMemory = true ∨ right.readsMemory = true) ∧ left.isNumeric = true ∧ right.isNumeric = true ∧
        v = .comparison whole.mark op left right) ∨
      (left.readsMemory = false ∧ right.readsMemory = false ∧ left.isConstant = false ∧ right.isConstant = false ∧
        op.isEquality = true ∧ v = .boolean whole.mark (left.same right == (op = .equal))) := by
  unfold openComparison at h
  split at h
  · rename_i hreads
    split at h
    · rename_i hnumeric
      obtain rfl := Except.ok.inj h
      simp only [Bool.and_eq_true, Bool.or_eq_true] at hreads hnumeric
      exact .inl ⟨hreads, hnumeric.1, hnumeric.2, rfl⟩
    · cases h
  · rename_i hreads
    split at h
    · rename_i hkinds
      obtain rfl := Except.ok.inj h
      simp only [Bool.or_eq_true, not_or, Bool.not_eq_true] at hreads
      simp only [Bool.and_eq_true, Bool.not_eq_true'] at hkinds
      exact .inr ⟨hreads.1, hreads.2, hkinds.1.1, hkinds.1.2, hkinds.2, rfl⟩
    · cases h

/-- A comparison is decided by two constants of one kind, or is none of two constants. -/
theorem comparison_cases {op : ComparisonOp} (h : comparison whole op left right = .ok v) :
    (∃ mark a mark' b, left = .integer mark a ∧ right = .integer mark' b ∧
        v = .boolean whole.mark (op.holds (compare a.toInt b.toInt))) ∨
      (∃ mark a mark' b, left = .text mark a ∧ right = .text mark' b ∧
        v = .boolean whole.mark (op.holds (compare a b))) ∨
      (∃ mark a mark' b, left = .boolean mark a ∧ right = .boolean mark' b ∧ op.isEquality = true ∧
        v = .boolean whole.mark ((a == b) == (op = .equal))) ∨
      openComparison whole op left right = .ok v := by
  unfold comparison at h
  split at h
  · exact .inl ⟨_, _, _, _, rfl, rfl, (Except.ok.inj h).symm⟩
  · exact .inr (.inl ⟨_, _, _, _, rfl, rfl, (Except.ok.inj h).symm⟩)
  · split at h
    · rename_i hop
      exact .inr (.inr (.inl ⟨_, _, _, _, rfl, rfl, hop, (Except.ok.inj h).symm⟩))
    · exact .inr (.inr (.inr h))
  · exact .inr (.inr (.inr h))

/-- What passes the check is an operand of a connective. -/
theorem checkOperand_eq_ok {op : LogicalOp} {operand : Expr} {u : Unit} (h : checkOperand whole op operand = .ok u) :
    operand.isOperand = true := by
  unfold checkOperand at h
  split at h
  · assumption
  · cases h

/-- A connective is a negation of an operand, or joins two of them. -/
theorem logical_cases {op : LogicalOp} {left? : Option Expr} (h : logical whole op left? right = .ok v) :
    (op = .not ∧ right.isOperand = true ∧ v = negation whole right) ∨
      (∃ left, op ≠ .not ∧ left? = some left ∧ left.isOperand = true ∧ right.isOperand = true ∧
        v = connect (op = .or) (.boolean whole.mark (op = .or)) (.logical whole.mark op (some left) right) left right) := by
  unfold logical at h
  cases left? with
  | none =>
    obtain ⟨_, hright, h⟩ := bind_eq_ok.mp h
    have hoperand := checkOperand_eq_ok hright
    cases op with
    | not => exact .inl ⟨rfl, hoperand, (Except.ok.inj h).symm⟩
    | and | or => cases h
  | some left =>
    obtain ⟨_, hleft, h⟩ := bind_eq_ok.mp h
    obtain ⟨_, hright, h⟩ := bind_eq_ok.mp h
    have hoperand := checkOperand_eq_ok hright
    cases op with
    | not => exact .inl ⟨rfl, hoperand, (Except.ok.inj h).symm⟩
    | and | or =>
      exact .inr ⟨left, by decide, rfl, checkOperand_eq_ok hleft, hoperand, (Except.ok.inj h).symm⟩

/-- A negation is computed from a constant, and stays in front of anything else. -/
theorem negation_cases (whole right : Expr) :
    (∃ value, right.truth? = some value ∧ negation whole right = .boolean whole.mark !value) ∨
      (right.truth? = none ∧ negation whole right = .logical whole.mark .not none right) := by
  unfold negation
  cases h : right.truth? with
  | some value => exact .inl ⟨value, rfl, rfl⟩
  | none => exact .inr ⟨rfl, rfl⟩

/-- Two joined operands are decided by one of them, are one of them, or stay. -/
theorem connect_cases (absorbing : Bool) (decided joined left right : Expr) :
    ((left.truth? = some absorbing ∨ right.truth? = some absorbing) ∧
        connect absorbing decided joined left right = decided) ∨
      (left.truth? = some (!absorbing) ∧ connect absorbing decided joined left right = right) ∨
      (right.truth? = some (!absorbing) ∧ connect absorbing decided joined left right = left) ∨
      (left.truth? = none ∧ right.truth? = none ∧ connect absorbing decided joined left right = joined) := by
  unfold connect
  cases hleft : left.truth? with
  | none =>
    cases hright : right.truth? with
    | none => exact .inr (.inr (.inr ⟨rfl, rfl, rfl⟩))
    | some b => cases b <;> cases absorbing <;> simp
  | some a =>
    cases hright : right.truth? with
    | none => cases a <;> cases absorbing <;> simp
    | some b => cases a <;> cases b <;> cases absorbing <;> simp

end Fold

/-! ## Errors of folding -/

/-- An error that reports a variable whose value depends on itself. -/
def Error.isRecursion (error : Error) : Bool :=
  match error.fault with
  | .evaluation (.recursiveReference _) => true
  | _ => false

/-- A computation does not fail because a variable depends on itself. -/
def AvoidsRecursion {α : Type} (result : Except Error α) : Prop :=
  ∀ error, result = .error error → error.isRecursion = false

theorem avoidsRecursion_ok {α : Type} (a : α) : AvoidsRecursion (.ok a) := by
  intro error h
  cases h

theorem avoidsRecursion_error {α : Type} {error : Error} (h : error.isRecursion = false) :
    AvoidsRecursion (.error error : Except Error α) := by
  intro error' heq
  rwa [← Except.error.inj heq]

/-- Computations one after the other give no error of a name inside itself if none of them does. -/
theorem AvoidsRecursion.bind {α β : Type} {result : Except Error α} {next : α → Except Error β} (h : AvoidsRecursion result)
    (hnext : ∀ a, AvoidsRecursion (next a)) : AvoidsRecursion (result >>= next) := by
  cases result with
  | ok a => exact hnext a
  | error error => exact avoidsRecursion_error (h error rfl)

namespace Fold

variable {whole left right : Expr}

/-- Folding arithmetic looks up no name. -/
theorem avoidsRecursion_arithmetic (op : ArithmeticOp) : AvoidsRecursion (arithmetic whole op left right) := by
  unfold arithmetic
  split
  · split
    · exact avoidsRecursion_error rfl
    · split
      · exact avoidsRecursion_ok _
      · exact avoidsRecursion_error rfl
  · split
    · unfold texts
      split
      · exact avoidsRecursion_ok _
      · exact avoidsRecursion_error rfl
    · split
      · exact avoidsRecursion_ok _
      · exact avoidsRecursion_error rfl

/-- A comparison that is left open looks up no name. -/
theorem avoidsRecursion_openComparison (op : ComparisonOp) : AvoidsRecursion (openComparison whole op left right) := by
  unfold openComparison
  split
  · split
    · exact avoidsRecursion_ok _
    · exact avoidsRecursion_error rfl
  · split
    · exact avoidsRecursion_ok _
    · exact avoidsRecursion_error rfl

/-- Folding a comparison looks up no name. -/
theorem avoidsRecursion_comparison (op : ComparisonOp) : AvoidsRecursion (comparison whole op left right) := by
  unfold comparison
  split
  · exact avoidsRecursion_ok _
  · exact avoidsRecursion_ok _
  · split
    · exact avoidsRecursion_ok _
    · exact avoidsRecursion_openComparison op
  · exact avoidsRecursion_openComparison op

/-- Checking an operand looks up no name. -/
theorem avoidsRecursion_checkOperand (op : LogicalOp) (operand : Expr) :
    AvoidsRecursion (checkOperand whole op operand) := by
  unfold checkOperand
  split
  · exact avoidsRecursion_ok _
  · exact avoidsRecursion_error rfl

/-- Folding a connective looks up no name. -/
theorem avoidsRecursion_logical (op : LogicalOp) (left? : Option Expr) : AvoidsRecursion (logical whole op left? right) := by
  unfold logical
  cases left? with
  | none =>
    refine (avoidsRecursion_checkOperand op right).bind fun _ => ?_
    cases op with
    | not => exact avoidsRecursion_ok _
    | and | or => exact avoidsRecursion_error rfl
  | some left =>
    refine (avoidsRecursion_checkOperand op left).bind fun _ => (avoidsRecursion_checkOperand op right).bind fun _ => ?_
    cases op with
    | not | and | or => exact avoidsRecursion_ok _

end Fold

end TriggerScript
