import TriggerScript.Expr.Parser
import TriggerScript.Proofs.Token.Ending

/-!
# Expressions at the end of a stream

Every level of the parser of expressions reads at least one token and treats an end alike, stated or implied, if what is
nested in brackets does. A bracket is a token itself, so what is nested has fewer tokens ahead, and by induction on their
number expressions are read alike.
-/

namespace TriggerScript

open TokenStream

namespace Parser

section Levels

variable {implied stated : Span} {k : Nat} {nested nested' : Parser Expr} (hnested : Consumes implied stated k nested nested')
include hnested

/-- A nested value. -/
theorem keeps_nestedValue (place : Place) :
    Keeps implied stated k (do expectValue place (← nested)) (do expectValue place (← nested')) :=
  fun n hn => (hnested.keeps n hn).bind fun e => alike_expectValue place e

/-- An entry of a dictionary is read alike if nested expressions are. -/
theorem keeps_entry : Keeps implied stated k (entry nested) (entry nested') := by
  intro n hn
  refine (hnested.keeps n hn).bind fun key => (alike_expectValue _ key).bind fun key => ?_
  refine (alike_expect _ (by simp) _).bind fun _ => ?_
  refine (hnested.keeps _ (by omega)).bind fun value => (alike_expectValue _ value).bind fun value => ?_
  exact alike_return (by omega) (key, value)

/-- Values up to a closing symbol are read alike. -/
theorem keeps_valuesUntil (closing : Symbol) (unclosed : Expectation) (place : Place) :
    Keeps implied stated k (valuesUntil nested closing unclosed place) (valuesUntil nested' closing unclosed place) := by
  intro n hn
  refine alike_remaining fun count hcount => ?_
  exact (alike_entriesUntil (keeps_nestedValue hnested place) (by omega)).mono hcount

/-- A primary expression is read alike and uses up tokens. -/
theorem consumes_primary : Consumes implied stated (k + 1) (primary nested) (primary nested') := by
  intro n hn
  have hkeeps := hnested.keeps n (by omega)
  refine alike_current (fun token htoken => ?_) fun _ _ => alike_failUnexpected
  obtain ⟨kind, span⟩ := token
  cases kind with
  | integer value => exact (alike_advance htoken).bind fun _ => alike_pure _
  | text value => exact (alike_advance htoken).bind fun _ => alike_pure _
  | name word =>
    refine (alike_advance htoken).bind fun _ => alike_ifNext (by simp) (fun _ => ?_) fun next => (alike_pure _).ahead
    exact (keeps_valuesUntil hnested _ _ _ (n - 1) (by omega)).bind fun args => alike_return (by omega) _
  | keyword word =>
    cases word with
    | trueWord | falseWord => exact (alike_advance htoken).bind fun _ => alike_pure _
    | returnWord =>
      refine (alike_advance htoken).bind fun _ => hkeeps.bind fun value => ?_
      exact (alike_expectValue _ value).bind fun value => alike_pure _
    | _ => exact alike_failUnexpected
  | symbol sign =>
    cases sign with
    | leftParen =>
      refine (alike_advance htoken).bind fun _ => hkeeps.bind fun inner => ?_
      refine (alike_expect _ (by simp) _).bind fun _ => ?_
      exact alike_return (by omega) inner.asUnit
    | leftBracket =>
      refine (alike_advance htoken).bind fun _ => ?_
      exact (keeps_valuesUntil hnested _ _ _ n (by omega)).bind fun entries => alike_pure _
    | leftBrace =>
      refine (alike_advance htoken).bind fun _ => alike_remaining fun count hcount => ?_
      refine (alike_entriesUntil (keeps_entry hnested) (by omega)).bind fun entries => ?_
      exact alike_return hcount _
    | _ => exact alike_failUnexpected
  | endOfScript => exact absurd rfl htoken

/-- Indices may be read with a bound that is larger by one. -/
theorem alike_indices {bound : Nat} (hbound : bound ≤ k) (base : Expr) :
    Alike implied stated (Below (bound + 1)) (indices nested bound base) (indices nested' (bound + 1) base)
      (fun _ => Below (bound + 1)) := by
  induction bound generalizing base with
  | zero =>
    have hstop : Alike implied stated (Below 1) (pure base) (pure base) (fun _ => Below 1) := alike_pure base
    refine hstop.trans_eq fun stream stream' hstream hbelow => ?_
    rw [indices, peek_bind_apply, hstream.kind_of_below_one hbelow]
    rfl
  | succ bound ih =>
    rw [indices, indices]
    refine alike_peek.bind fun next => ?_
    split
    · rename_i hnext
      subst hnext
      split
      · refine (alike_advance (by simp)).bind fun _ => (hnested.keeps _ hbound).bind fun index => ?_
        refine (alike_expectValue _ index).bind fun index => (alike_expect _ (by simp) _).bind fun _ => ?_
        refine (ih (by omega) _).weaken (fun _ h => ?_) fun _ _ h => ?_
        · exact h.mono (by omega)
        · exact h.mono (by omega)
      · exact alike_failExpecting _ _
    · exact (alike_pure base).ahead

/-- An expression with its indices is read alike and uses up tokens. -/
theorem consumes_indexed : Consumes implied stated (k + 1) (indexed nested) (indexed nested') := by
  intro n hn
  refine (consumes_primary hnested n hn).bind fun base => alike_remaining fun count hcount => ?_
  exact (alike_indices hnested (by omega) base).mono hcount

/-- Signs may be read with a bound that is larger by one: where no token is ahead, it leaves room for a sign that does not
come. -/
theorem alike_signs {bound : Nat} (hbound : bound ≤ k) :
    Alike implied stated (Below (bound + 1)) (signs nested bound) (signs nested' (bound + 1)) (fun _ => Below bound) := by
  induction bound with
  | zero =>
    refine (consumes_indexed hnested 0 (by omega)).trans_eq fun stream stream' hstream hbelow => ?_
    rw [signs, current_bind_apply, hstream.kind_of_below_one hbelow]
    rfl
  | succ bound ih =>
    have hindexed := consumes_indexed hnested (bound + 1) (by omega)
    rw [signs, signs]
    refine alike_current (fun token htoken => ?_) fun _ _ => hindexed.ahead
    split
    · refine (alike_advance htoken).bind fun _ => alike_peek.bind fun next => ?_
      cases next with
      | integer value =>
        refine (alike_advance (by simp)).bind fun _ => ?_
        split
        · exact alike_fail _ _ _
        · exact alike_return (by omega) _
      | _ =>
        refine ((ih (by omega)).ahead).bind fun operand => ?_
        exact alike_return (by omega) _
    · exact hindexed.ahead

/-- A signed expression is read alike and uses up tokens. -/
theorem consumes_signed : Consumes implied stated (k + 1) (signed nested) (signed nested') := by
  intro n hn
  refine alike_remaining fun count hcount => ?_
  exact (alike_signs hnested (by omega)).mono (by omega)

/-- A sum is read alike and uses up tokens. -/
theorem consumes_sum : Consumes implied stated (k + 1) (sum nested) (sum nested') := by
  have hproduct : Consumes implied stated (k + 1) (product nested) (product nested') :=
    (consumes_signed hnested).chain rfl
  exact hproduct.chain rfl

/-- A comparison is read alike and uses up tokens, with and without its right side. -/
theorem consumes_comparison : Consumes implied stated (k + 1) (comparison nested) (comparison nested') := by
  intro n hn
  have hsum := consumes_sum hnested
  refine (hsum n hn).bind fun left => alike_peek.bind fun next => ?_
  cases hnext : comparisonOp? next with
  | none => exact (alike_pure left).ahead
  | some op =>
    have hkind : next ≠ .endOfScript := by
      rintro rfl
      cases hnext
    refine (alike_skip hkind).bind fun _ => (hsum.keeps n (by omega)).bind fun right => ?_
    exact alike_pure _

/-- Negations may be read with a bound that is larger by one. -/
theorem alike_negations {bound : Nat} (hbound : bound ≤ k) :
    Alike implied stated (Below (bound + 1)) (negations nested bound) (negations nested' (bound + 1))
      (fun _ => Below bound) := by
  induction bound with
  | zero =>
    refine (consumes_comparison hnested 0 (by omega)).trans_eq fun stream stream' hstream hbelow => ?_
    rw [negations, current_bind_apply, hstream.kind_of_below_one hbelow]
    rfl
  | succ bound ih =>
    have hcomparison := consumes_comparison hnested (bound + 1) (by omega)
    rw [negations, negations]
    refine alike_current (fun token htoken => ?_) fun _ _ => hcomparison.ahead
    split
    · refine (alike_advance htoken).bind fun _ => (ih (by omega)).bind fun operand => ?_
      exact alike_return (by omega) _
    · exact hcomparison.ahead

/-- A negation is read alike and uses up tokens. -/
theorem consumes_negation : Consumes implied stated (k + 1) (negation nested) (negation nested') := by
  intro n hn
  refine alike_remaining fun count hcount => ?_
  exact (alike_negations hnested (by omega)).mono (by omega)

/-- A disjunction is read alike and uses up tokens. -/
theorem consumes_disjunction : Consumes implied stated (k + 1) (disjunction nested) (disjunction nested') := by
  have hconjunction : Consumes implied stated (k + 1) (conjunction nested) (conjunction nested') :=
    (consumes_negation hnested).chain rfl
  exact hconjunction.chain rfl

end Levels

variable {implied stated : Span}

/-- The depth that the number of tokens allows is enough, and so is a larger one. -/
theorem consumes_expressionWithin (depth : Nat) :
    Consumes implied stated depth (expressionWithin depth) (expressionWithin (depth + 1)) := by
  induction depth with
  | zero =>
    intro n hn
    cases hn
  | succ depth ih => exact consumes_disjunction ih

/-- An expression is read alike and uses up tokens. -/
theorem consumes_expression (k : Nat) : Consumes implied stated k expression expression := by
  intro n _
  refine alike_remaining fun count hcount => ?_
  exact (consumes_expressionWithin (count + 1) count (by omega)).mono (by omega)

end Parser

end TriggerScript
