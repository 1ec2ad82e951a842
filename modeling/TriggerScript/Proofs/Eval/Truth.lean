import TriggerScript.Proofs.Eval.Congruence
import TriggerScript.Proofs.Eval.Fold

/-!
# Testing and evaluating

A condition is tested while a script runs: the right operand of a connective is looked at only where the left one does not
decide, and the conditions that are always true or false count as constants. It is evaluated as a whole: both operands are,
and only truth values are folded. Where a condition can be tested and evaluated, its value stands the test as it did.
-/

namespace TriggerScript

/-! ## One value -/

namespace Eval

/-- Two runs that have the same result if both have any, whatever has been registered before them. -/
def OneResult (α : Type) (run run' : Eval α) : Prop :=
  ∀ {output output' after after' a a'}, run output = (.ok a, after) → run' output' = (.ok a', after') → a = a'

/-- Runs without a result have at most one. -/
theorem oneResult_unit (run run' : Eval Unit) : OneResult Unit run run' := by
  intro _ _ _ _ a a' _ _
  rfl

/-- What has been registered decides at most whether a run fails. -/
theorem isFullCongruence_oneResult : IsFullCongruence OneResult where
  admits _ := trivial
  ofExcept {_ _} _ := by
    intro _ _ _ _ a a' h h'
    exact Except.ok.inj ((Prod.mk.inj h).1.symm.trans (Prod.mk.inj h').1)
  bind {_ _ _ _ _ _} hrun hnext := by
    intro _ _ _ _ b b' h h'
    obtain ⟨a, between, ha, h⟩ := Run.bind_eq_ok h
    obtain ⟨a', between', ha', h'⟩ := Run.bind_eq_ok h'
    obtain rfl := hrun ha ha'
    exact hnext a ⟨_, _, ha⟩ h h'

/-- No step that registers output has a result of its own. -/
theorem isRegisteringCongruence_oneResult : IsRegisteringCongruence OneResult where
  full := isFullCongruence_oneResult
  record _ := oneResult_unit _ _
  addAchievement _ := oneResult_unit _ _
  addLeaderboard _ := oneResult_unit _ _
  changePresence _ _ := oneResult_unit _ _

end Eval

/-! ## Values that a test decides -/

namespace Expr

variable {env : Env} {mark mark' : Mark} {op : LogicalOp} {left right v : Expr} {b : Bool}

/-- A value that is found to be true or false wherever it is tested, and nothing is registered. -/
def Decides (b : Bool) (v : Expr) : Prop :=
  ∀ env output, v.isTrue env output = (.ok b, output)

/-- A constant decides for its truth. -/
theorem decides_of_constantTruth? (h : v.constantTruth? = some b) : v.Decides b := by
  intro env output
  cases v with
  | boolean mark value =>
    obtain rfl := Option.some.inj h
    rfl
  | alwaysTrue mark =>
    obtain rfl := Option.some.inj h
    rfl
  | alwaysFalse mark =>
    obtain rfl := Option.some.inj h
    rfl
  | _ => cases h

/-- A truth value decides itself and nothing else. -/
theorem Decides.eq_of_truth? {value : Bool} (h : v.Decides b) (htruth : v.truth? = some value) : b = value := by
  obtain ⟨mark, rfl⟩ := eq_boolean_of_truth? htruth
  have htest := h ⟨fun _ _ => pure (.boolean mark value), fun _ _ _ => pure none⟩ {}
  exact (Except.ok.inj (Prod.mk.inj htest).1).symm

/-- The left operand of a connective decides it, or the right one does. -/
theorem isTrue_connective (hop : op ≠ .not) :
    (logical mark op (some left) right).isTrue env =
      (left.isTrue env >>= fun truth => if truth = decide (op = .or) then pure truth else right.isTrue env) := by
  cases op with
  | not => exact absurd rfl hop
  | and | or =>
    simp only [isTrue]
    congr 1
    funext truth
    cases truth <;> rfl

/-- A folded negation decides for the opposite. -/
theorem Decides.negation (h : right.Decides b) (whole : Expr) : (Fold.negation whole right).Decides !b := by
  rcases Fold.negation_cases whole right with ⟨value, htruth, heq⟩ | ⟨_, heq⟩
  · rw [heq, h.eq_of_truth? htruth]
    exact decides_of_constantTruth? rfl
  · rw [heq]
    intro env output
    rw [isTrue, Run.bind_of_eq_ok (h env output)]
    rfl

/-- Joined operands decide what their test does, which stops at the left one if that is enough. -/
theorem Decides.connect {truth : Bool} (hop : op ≠ .not) (hleft : left.Decides truth)
    (hstop : truth = decide (op = .or) → b = truth) (hright : truth ≠ decide (op = .or) → right.Decides b) :
    (Fold.connect (op = .or) (.boolean mark (op = .or)) (.logical mark' op (some left) right) left right).Decides b := by
  rcases Fold.connect_cases (op = .or) (.boolean mark (op = .or)) (.logical mark' op (some left) right) left right with
    ⟨habsorbed, heq⟩ | ⟨hneutral, heq⟩ | ⟨hneutral, heq⟩ | ⟨_, _, heq⟩
  · have hb : b = decide (op = .or) := by
      by_cases htruth : truth = decide (op = .or)
      · exact (hstop htruth).trans htruth
      · rcases habsorbed with habsorbed | habsorbed
        · exact absurd (hleft.eq_of_truth? habsorbed) htruth
        · exact (hright htruth).eq_of_truth? habsorbed
    rw [heq, hb]
    exact decides_of_constantTruth? rfl
  · have htruth : truth ≠ decide (op = .or) := by
      rw [hleft.eq_of_truth? hneutral]
      simp
    rw [heq]
    exact hright htruth
  · rw [heq]
    by_cases htruth : truth = decide (op = .or)
    · rw [hstop htruth]
      exact hleft
    · have hb : b = !decide (op = .or) := (hright htruth).eq_of_truth? hneutral
      have heither : truth = !decide (op = .or) := Bool.eq_not.mpr htruth
      rw [hb, ← heither]
      exact hleft
  · rw [heq]
    intro env output
    rw [isTrue_connective hop, Run.bind_of_eq_ok (hleft env output)]
    split
    · rename_i htruth
      rw [hstop htruth]
      rfl
    · rename_i htruth
      exact hright htruth env output

/-- Where names and calls have one value, the value of a condition decides what its test does. -/
theorem decides_of_isTrue (hone : ∀ e : Expr, Eval.OneResult Expr (e.replace env) (e.replace env)) {e v : Expr} {b : Bool}
    {output output' after after' : Output} (htest : e.isTrue env output = (.ok b, after))
    (hvalue : e.replace env output' = (.ok v, after')) : v.Decides b := by
  induction e using children_induction generalizing v b output output' after after' with
  | h e ih =>
    cases e with
    | logical mark op left? right =>
      have hmem : right ∈ (logical mark op left? right).children := by simp [children]
      rw [replace] at hvalue
      obtain ⟨left', _, hleft, hvalue⟩ := Run.bind_eq_ok hvalue
      obtain ⟨right', _, hright, hvalue⟩ := Run.bind_eq_ok hvalue
      have hfold : Fold.logical (.logical mark op left? right) op left' right' = .ok v := (Prod.mk.inj hvalue).1
      rcases Fold.logical_cases hfold with ⟨rfl, _, rfl⟩ | ⟨left'', hop, rfl, _, _, rfl⟩
      · rw [isTrue] at htest
        obtain ⟨truth, _, htruth, htest⟩ := Run.bind_eq_ok htest
        obtain rfl := Except.ok.inj (Prod.mk.inj htest).1
        exact (ih right hmem htruth hright).negation _
      · cases left? with
        | none => cases hleft
        | some left =>
          obtain ⟨value, _, hoperand, hsome⟩ := Run.bind_eq_ok hleft
          obtain rfl := Option.some.inj (Except.ok.inj (Prod.mk.inj hsome).1)
          rw [isTrue_connective hop] at htest
          obtain ⟨truth, _, htruth, htest⟩ := Run.bind_eq_ok htest
          refine (ih left (by simp [children]) htruth hoperand).connect hop (fun hstop => ?_) fun hgoes => ?_
          · rw [if_pos hstop] at htest
            exact (Except.ok.inj (Prod.mk.inj htest).1).symm
          · rw [if_neg hgoes] at htest
            exact ih right hmem htest hright
    | boolean | alwaysTrue | alwaysFalse =>
      obtain rfl := Except.ok.inj (Prod.mk.inj htest).1
      obtain rfl := Except.ok.inj (Prod.mk.inj hvalue).1
      exact decides_of_constantTruth? rfl
    | _ =>
      simp only [isTrue] at htest
      obtain ⟨value, _, hfirst, htest⟩ := Run.bind_eq_ok htest
      obtain rfl := hone _ hfirst hvalue
      refine decides_of_constantTruth? ?_
      cases htruth : value.constantTruth? with
      | none =>
        rw [htruth] at htest
        cases htest
      | some truth =>
        rw [htruth] at htest
        rw [Except.ok.inj (Prod.mk.inj htest).1]

end Expr

namespace Scope

/-- The test of a condition agrees with its evaluation: the value of a condition that is found to be true or false is found
to be the same, in whatever scope it is tested and whatever has been registered before the test, before the evaluation and
since. -/
theorem test_agrees_with_evaluation {settings : Settings} {scope : Scope} {e v : Expr} {b : Bool}
    {output output' after after' : Output} (htest : scope.isTrue settings e output = (.ok b, after))
    (hvalue : scope.evaluate settings e output' = (.ok v, after')) (settings' : Settings) (scope' : Scope) (final : Output) :
    scope'.isTrue settings' v final = (.ok b, final) := by
  have henv := isRelated_envUnder Eval.isRegisteringCongruence_oneResult settings scope
  have hone := henv.replace Eval.isRegisteringCongruence_oneResult.full
  rw [evaluate, Expr.evaluate, Expr.ifValue] at hvalue
  split at hvalue
  · exact Expr.decides_of_isTrue hone htest hvalue _ _
  · cases hvalue

/-- A condition that is true without looking at memory: its left part is always false, and a function answers for its right
part. -/
def guardedRead : Expr :=
  let read : Expr := .comparison {} .equal (.call {} "byte" [.integer {} 1]) (.integer {} 1)
  .logical {} .or (some (.logical {} .and (some (.call {} "always_false" [])) read)) (.call {} "instead" [])

/-- A scope with the function, which registers a line before it answers. -/
def withInstead : Scope :=
  Scope.global.define
    { name := "instead"
      parameters := []
      body := [.expression (.call {} "rich_presence_display" [.text {} "line"]),
        .expression (.returned {} (.call {} "always_true" []))]
      span := {} }

/-- A test in which a false condition guards a comparison agrees with evaluation. -/
theorem test_agrees_with_evaluation_guardedRead :
    ∃ v tested evaluated, withInstead.isTrue {} guardedRead {} = (.ok true, tested) ∧
      withInstead.evaluate {} guardedRead {} = (.ok v, evaluated) ∧
      v.render = "always_false() && byte(0x000001) == 1 || always_true()" ∧
      ∀ settings' scope' final, Scope.isTrue settings' scope' v final = (.ok true, final) := by
  have htest : (withInstead.isTrue {} guardedRead {}).1.toOption = some true := by decide +kernel
  have hvalue : (withInstead.evaluate {} guardedRead {}).1.toOption.map Expr.render =
      some "always_false() && byte(0x000001) == 1 || always_true()" := by decide +kernel
  cases htested : withInstead.isTrue {} guardedRead {} with
  | mk tested after =>
    rw [htested] at htest
    cases tested with
    | error error => cases htest
    | ok b =>
      obtain rfl : b = true := Option.some.inj htest
      cases hevaluated : withInstead.evaluate {} guardedRead {} with
      | mk result after' =>
        rw [hevaluated] at hvalue
        cases result with
        | error error => cases hvalue
        | ok v => exact ⟨v, after, after', rfl, rfl, Option.some.inj hvalue, test_agrees_with_evaluation htested hevaluated⟩

end Scope

end TriggerScript
