import TriggerScript.Proofs.Lowering.Conservation

/-!
# Which conditions are lowered

A condition that is built from comparisons and fixed truths by connectives is lowered if its leaves are, unless too many
negations stand directly on one another: each place where lowering goes into a negation takes off two of them at most, and
refuses what is still negated then (`Trigger.lowering_accepts_iff`). Stacks of up to four negations are accepted everywhere.
-/

namespace TriggerScript

namespace Expr

/-! ## Stacked negations -/

/-- The number of negations that stand on the operand of a connective, at most, if it can be lowered. -/
def operandRoom (negated : Bool) : Nat :=
  if negated then 5 else 4

/-- Whether there is room for the negations in a condition, or in its negation: for those it begins with, and for those that
the operands of its connectives begin with. -/
def fits (room : Nat) (negated : Bool) : Expr → Bool
  | .logical _ .not _ right => 0 < room && right.fits (room - 1) (!negated)
  | .logical _ _ (some left) right =>
    left.fits (operandRoom negated) negated && right.fits (operandRoom negated) negated
  | _ => true

/-- The number of negations that a condition begins with. -/
def negations : Expr → Nat
  | .logical _ .not _ right => right.negations + 1
  | _ => 0

/-- Under a connective, each operand has its own room. -/
theorem fits_join (mark : Mark) {op : LogicalOp} (hop : op ≠ .not) (left right : Expr) (room : Nat) (negated : Bool) :
    (logical mark op (some left) right).fits room negated =
      (left.fits (operandRoom negated) negated && right.fits (operandRoom negated) negated) := by
  cases op with
  | and | or => rfl
  | not => exact absurd rfl hop

/-- A leaf fits everywhere. -/
theorem fits_of_isBasic {e : Expr} (h : e.isBasic) (room : Nat) (negated : Bool) : e.fits room negated = true := by
  cases e with
  | comparison | boolean | alwaysTrue | alwaysFalse => rfl
  | _ => cases h

/-- Only negations take up room. -/
theorem fits_of_isNegation_eq_false {e : Expr} (h : e.isNegation = false) (room room' : Nat) (negated : Bool) :
    e.fits room negated = e.fits room' negated := by
  cases e with
  | logical mark op left right =>
    cases op with
    | not => cases h
    | and | or => cases left <;> rfl
  | _ => rfl

/-- A negation does not fit where there is no room. -/
theorem fits_zero_of_isNegation {e : Expr} (h : e.isNegation = true) (negated : Bool) : e.fits 0 negated = false := by
  cases e with
  | logical mark op left right =>
    cases op with
    | not => rfl
    | and | or => cases h
  | _ => cases h

/-- What fits into some room fits into more room. -/
theorem fits_mono {e : Expr} {room room' : Nat} {negated : Bool} (hroom : room ≤ room')
    (h : e.fits room negated = true) : e.fits room' negated = true := by
  fun_induction fits room negated e generalizing room' with
  | case1 room negated mark left right ih =>
    simp only [fits, Bool.and_eq_true, decide_eq_true_eq] at h ⊢
    exact ⟨by omega, ih (by omega) h.2⟩
  | case2 room negated mark op left right hop _ _ => exact (fits_join mark hop left right room' negated).trans h
  | case3 room negated e hnot hsome =>
    rw [fits]
    · exact hnot
    · exact hsome

/-- There is room for stacks of up to four negations everywhere. -/
theorem fits_of_negations {e : Expr} (h : e.Everywhere (·.negations ≤ 4)) {room : Nat} (hroom : e.negations ≤ room)
    (negated : Bool) : e.fits room negated = true := by
  fun_induction fits room negated e with
  | case1 room negated mark left right ih =>
    have hright := ih (h.part (by simp [children]))
    rw [negations] at hroom
    simp only [Bool.and_eq_true, decide_eq_true_eq]
    exact ⟨by omega, hright (by omega)⟩
  | case2 room negated mark op left right _ ihl ihr =>
    have hoperand : ∀ operand ∈ [left, right], operand.negations ≤ operandRoom negated := by
      intro operand hmem
      have hpart : operand.Everywhere (·.negations ≤ 4) := h.part hmem
      have hfour : operand.negations ≤ 4 := hpart.root
      unfold operandRoom
      split <;> omega
    rw [ihl (h.part (by simp [children])) (hoperand left (by simp)),
      ihr (h.part (by simp [children])) (hoperand right (by simp)), Bool.and_true]
  | case3 => rfl

/-! ## Conditions without modifiers -/

/-- Both operands of a connective are unmodified if the whole is. -/
theorem isUnmodified_of_some {mark : Mark} {op : LogicalOp} {left right : Expr}
    (h : (logical mark op (some left) right).isUnmodified = true) :
    left.isUnmodified = true ∧ right.isUnmodified = true := by
  cases op with
  | and | or => exact Bool.and_eq_true_iff.mp h
  | not => cases h

/-- The last operand of a connective is unmodified if the whole is. -/
theorem isUnmodified_right {mark : Mark} {op : LogicalOp} {left : Option Expr} {right : Expr}
    (h : (logical mark op left right).isUnmodified = true) : right.isUnmodified = true := by
  cases left with
  | some left => exact (isUnmodified_of_some h).2
  | none =>
    cases op with
    | not => exact h
    | and | or => cases h

/-- Inverting a condition puts no modifiers on it. -/
theorem isUnmodified_invert {e : Expr} (h : e.isUnmodified = true) : e.invert.isUnmodified = true := by
  fun_induction isUnmodified e with
  | case5 mark right ih => exact h
  | case6 mark left right ihl ihr | case7 mark left right ihl ihr =>
    obtain ⟨hl, hr⟩ := Bool.and_eq_true_iff.mp h
    rw [invert, isUnmodified, ihl hl, ihr hr, Bool.and_true]
  | case8 => cases h
  | _ => rfl

/-- The parts of an unmodified condition are unmodified. -/
theorem isUnmodified_of_mem_parts {e : Expr} (h : e.isUnmodified = true) {op : LogicalOp} {negated : Bool} :
    ∀ part ∈ e.parts op negated, part.isUnmodified = true :=
  forall_mem_parts (p := (·.isUnmodified = true)) (fun _ => isUnmodified_invert)
    (fun _ _ _ _ _ h => (isUnmodified_of_some h).1) (fun _ _ _ _ => isUnmodified_right) h

/-- Inverting a condition turns its negations over, and takes one off those it begins with. -/
theorem fits_invert {e : Expr} (h : e.isUnmodified = true) (room : Nat) :
    e.invert.fits room false = e.fits (room + 1) true := by
  fun_induction isUnmodified e generalizing room with
  | case5 mark right ih => simp [invert, fits]
  | case6 mark left right ihl ihr | case7 mark left right ihl ihr =>
    obtain ⟨hl, hr⟩ := Bool.and_eq_true_iff.mp h
    simp [invert, fits, operandRoom, ihl hl, ihr hr]
  | case8 => cases h
  | _ => rfl

/-- What is built differently is no negation. -/
theorem isNegation_eq_false {e : Expr} (h : ∀ mark left right, e ≠ .logical mark .not left right) :
    e.isNegation = false := by
  cases e with
  | logical mark op left right =>
    cases op with
    | not => exact absurd rfl (h mark left right)
    | and | or => rfl
  | _ => rfl

/-- The parts of a condition have room for their negations exactly if the condition has, as the operand of a connective. What
is split has no negation in front once it is inverted, so the room there makes no difference. -/
theorem fits_parts {e : Expr} (h : e.isUnmodified = true) (c : Connective) (negated : Bool) :
    (∀ part ∈ e.parts c.op negated, part.fits 2 false = true) ↔ e.fits (operandRoom negated) negated = true := by
  have hsingle : ∀ e : Expr, e.isNegation = false →
      ((∀ part ∈ [e], part.fits 2 false = true) ↔ e.fits (operandRoom false) false = true) := by
    intro e hnegation
    rw [List.forall_mem_singleton, fits_of_isNegation_eq_false hnegation]
  have hinverted : ∀ e : Expr, e.isUnmodified = true → e.isNegation = false →
      ((∀ part ∈ [e.invert], part.fits 2 false = true) ↔ e.fits (operandRoom true) true = true) := by
    intro e he hnegation
    rw [List.forall_mem_singleton, fits_invert he, fits_of_isNegation_eq_false hnegation]
  fun_induction parts c.op negated e with
  | case1 mark left right hjoins ih =>
    have hright := isUnmodified_right h
    have hroom : right.fits 5 true = right.fits 3 true := by
      rw [← fits_invert hright 4, ← fits_invert hright 2]
      exact fits_of_isNegation_eq_false (isNegation_of_joinsWith hjoins) 4 2 false
    refine (ih hright).trans ?_
    simp only [fits, operandRoom]
    simp [hroom]
  | case2 mark left right _ =>
    rw [List.forall_mem_singleton, fits_invert (isUnmodified_right h)]
    simp [fits, operandRoom]
  | case3 mark left right hop ihl ihr | case7 mark op left right hop _ ihl ihr =>
    obtain ⟨hl, hr⟩ := isUnmodified_of_some h
    rw [List.forall_mem_append, fits_join mark fun heq => hop heq, Bool.and_eq_true]
    exact and_congr (ihl hl) (ihr hr)
  | case4 mark op left right hop _ => exact hsingle _ (isNegation_eq_false fun _ _ _ heq => hop (by cases heq; rfl))
  | case5 e hnot _ => exact hsingle _ (isNegation_eq_false fun _ _ _ heq => hnot _ _ _ heq)
  | case6 mark left right ih =>
    refine (ih (isUnmodified_right h)).trans ?_
    simp [fits, operandRoom]
  | case8 mark op left right hop _ => exact hinverted _ h (isNegation_eq_false fun _ _ _ heq => hop (by cases heq; rfl))
  | case9 e hnot _ => exact hinverted _ h (isNegation_eq_false fun _ _ _ heq => hnot _ _ _ heq)

/-! ## The leaves of a condition -/

/-- Inverting a leaf twice gives it back. -/
theorem invert_invert_of_isBasic {e : Expr} (h : e.isBasic) : e.invert.invert = e := by
  cases e with
  | comparison | boolean => simp [invert]
  | alwaysTrue | alwaysFalse => rfl
  | _ => cases h

/-- An inverted leaf is a leaf. -/
theorem isBasic_invert {e : Expr} (h : e.isBasic) : e.invert.isBasic := by
  cases e with
  | comparison | boolean | alwaysTrue | alwaysFalse => rfl
  | _ => cases h

/-- The leaves of the formula of a condition are those of the condition, some of them inverted. -/
theorem forall_mem_leaves_iff {p : Expr → Prop} (hp : ∀ leaf : Expr, leaf.isBasic → (p leaf.invert ↔ p leaf)) {e : Expr}
    (h : e.isUnmodified = true) (negated : Bool) :
    (∀ leaf ∈ (e.formula negated).leaves, p leaf) ↔ ∀ leaf ∈ e.conditionLeaves, p leaf := by
  fun_induction isUnmodified e generalizing negated with
  | case5 mark right ih =>
    rw [formula, conditionLeaves, optionLeaves, List.nil_append]
    exact ih h (!negated)
  | case6 mark left right ihl ihr | case7 mark left right ihl ihr =>
    obtain ⟨hl, hr⟩ := Bool.and_eq_true_iff.mp h
    rw [formula, Formula.leaves, conditionLeaves, optionLeaves, List.forall_mem_append, List.forall_mem_append]
    exact and_congr (ihl hl negated) (ihr hr negated)
  | case8 => cases h
  | _ =>
    rw [formula_of_isBasic negated rfl, Formula.leaves, conditionLeaves, List.forall_mem_singleton,
      List.forall_mem_singleton]
    cases negated with
    | false => exact Iff.rfl
    | true => exact hp _ rfl

/-- The leaves of an unmodified condition are comparisons and fixed truths. -/
theorem isBasic_of_mem_conditionLeaves {e : Expr} (h : e.isUnmodified = true) :
    ∀ leaf ∈ e.conditionLeaves, leaf.isBasic = true := by
  have hbasic : ∀ leaf : Expr, leaf.isBasic → (leaf.invert.isBasic = true ↔ leaf.isBasic = true) :=
    fun leaf hleaf => ⟨fun _ => hleaf, fun _ => isBasic_invert hleaf⟩
  exact (forall_mem_leaves_iff hbasic h false).mp (isBasic_of_mem_leaves h false)

/-- A leaf of the formula of a condition is a leaf of the condition, or the inverse of one. -/
theorem exists_mem_conditionLeaves {e leaf : Expr} (h : e.isUnmodified = true) (hleaf : leaf ∈ (e.formula false).leaves) :
    ∃ leaf' ∈ e.conditionLeaves, leaf = leaf' ∨ leaf = leaf'.invert := by
  refine (forall_mem_leaves_iff (p := fun leaf => ∃ leaf' ∈ e.conditionLeaves, leaf = leaf' ∨ leaf = leaf'.invert)
    (fun leaf hbasic => ?_) h false).mpr (fun leaf hleaf => ⟨leaf, hleaf, .inl rfl⟩) leaf hleaf
  refine exists_congr fun leaf' => and_congr_right fun hmem => ?_
  have hbasic' := isBasic_of_mem_conditionLeaves h leaf' hmem
  constructor
  · rintro (rfl | heq)
    · exact .inr (invert_invert_of_isBasic hbasic).symm
    · rw [← invert_invert_of_isBasic hbasic, heq, invert_invert_of_isBasic hbasic']
      exact .inl rfl
  · rintro (rfl | rfl)
    · exact .inr rfl
    · exact .inl (invert_invert_of_isBasic hbasic')

/-- The chains of an unmodified condition are unmodified. -/
theorem isUnmodified_of_mem_chains {e : Expr} (h : e.isUnmodified = true) :
    ∀ chain ∈ e.chains, chain.isUnmodified = true :=
  forall_mem_chains (p := (·.isUnmodified = true)) (fun _ _ h => isUnmodified_of_mem_parts h) (fun _ h => h) h

/-- Up to four negations on one another are not too many for the chains of a condition. -/
theorem fits_of_mem_chains {e : Expr} (h : e.isUnmodified = true) (hfour : e.Everywhere (·.negations ≤ 4)) :
    ∀ chain ∈ e.chains, chain.fits 2 false = true := by
  have hchains : ∀ chain ∈ e.chains, chain.isUnmodified = true ∧ chain.fits 2 false = true := by
    refine forall_mem_chains (p := fun part => part.isUnmodified = true ∧ part.fits 4 false = true) ?_ ?_
      ⟨h, fits_of_negations hfour hfour.root false⟩
    · intro c part hpart part' hmem
      exact ⟨isUnmodified_of_mem_parts hpart.1 part' hmem, (fits_parts hpart.1 c false).mpr hpart.2 part' hmem⟩
    · intro part hpart
      exact ⟨hpart.1, fits_mono (by decide) hpart.2⟩
  exact fun chain hchain => (hchains chain hchain).2

end Expr

namespace Lowering

open TriggerScript.Expr

/-! ## Comparisons -/

/-- Whether a number can be an operand does not depend on where it stands. -/
theorem numberOperand_eq_ok {e : Expr} {value : Int64} {operand : Operand} (h : numberOperand e value = .ok operand)
    (e' : Expr) : numberOperand e' value = .ok operand := by
  unfold numberOperand at h ⊢
  split at h
  · cases h
  · rename_i hvalue
    rw [if_neg hvalue]
    split at h
    · exact h
    · cases h

/-- Whether a right side can be an operand does not depend on where it stands. -/
theorem rightOperand_eq_ok {e left right : Expr} {offset : Int64} {operand : Operand}
    (h : rightOperand e left right offset = .ok operand) (e' : Expr) :
    rightOperand e' left right offset = .ok operand := by
  unfold rightOperand at h ⊢
  split at h
  · split at h
    · exact numberOperand_eq_ok h e'
    · cases h
  · split at h
    · rename_i hoffset
      rw [if_pos hoffset]
      exact h
    · cases h
  · cases h

/-- Whether a comparison is lowered does not depend on how its sides are compared. -/
theorem exists_sumComparison {e left right : Expr} {op : ComparisonOp} {conditions : List Condition}
    (h : sumComparison e op left right = .ok conditions) (e' : Expr) (op' : ComparisonOp) :
    ∃ conditions', sumComparison e' op' left right = .ok conditions' := by
  obtain ⟨sum, hsum, h⟩ := bind_eq_ok.mp h
  split at h
  · cases h
  · rename_i hterms
    obtain ⟨operand, hoperand, _⟩ := bind_eq_ok.mp h
    unfold sumComparison
    rw [hsum]
    simp only [bind, Except.bind, if_neg hterms, rightOperand_eq_ok hoperand e']
    split <;> exact ⟨_, rfl⟩

/-- Whether two sides can be compared depends neither on the operator nor on where they stand. -/
theorem exists_comparison {e left right : Expr} {op : ComparisonOp} {conditions : List Condition}
    (h : comparison e op left right = .ok conditions) (e' : Expr) (op' : ComparisonOp) :
    ∃ conditions', comparison e' op' left right = .ok conditions' := by
  unfold comparison at h ⊢
  split at h
  · rename_i hconstant
    rw [if_pos hconstant]
    exact exists_sumComparison h e' op'.reverse
  · rename_i hconstant
    rw [if_neg hconstant]
    exact exists_sumComparison h e' op'

/-- A leaf is lowered exactly if the inverted one is. -/
theorem exists_clause_invert {leaf : Expr} (h : leaf.isBasic) :
    (∃ conditions, clause leaf.invert = .ok conditions) ↔ ∃ conditions, clause leaf = .ok conditions := by
  cases leaf with
  | comparison mark op left right =>
    constructor
    · rintro ⟨conditions, hconditions⟩
      exact exists_comparison hconditions _ op
    · rintro ⟨conditions, hconditions⟩
      exact exists_comparison hconditions _ op.invert
  | boolean mark value => exact ⟨fun _ => ⟨_, rfl⟩, fun _ => ⟨_, rfl⟩⟩
  | alwaysTrue mark | alwaysFalse mark => exact ⟨fun _ => ⟨_, rfl⟩, fun _ => ⟨_, rfl⟩⟩
  | _ => cases h

/-- A leaf is lowered in one step. -/
theorem clauseWithin_of_isBasic {leaf : Expr} (h : leaf.isBasic) (bound : Nat) :
    clauseWithin (bound + 1) leaf = clause leaf := by
  cases leaf with
  | comparison | boolean | alwaysTrue | alwaysFalse => rfl
  | _ => cases h

/-! ## Failures -/

/-- An error of conditions lowered one after the other is the error of one of them. -/
theorem all_eq_error {lower : Expr → Except Error (List Condition)} {es : List Expr} {error : Error}
    (h : all lower es = .error error) : ∃ e ∈ es, lower e = .error error := by
  induction es with
  | nil => cases h
  | cons e es ih =>
    rcases bind_eq_error.mp h with h | ⟨first, _, h⟩
    · exact ⟨e, List.mem_cons_self, h⟩
    · rcases bind_eq_error.mp h with h | ⟨others, _, h⟩
      · obtain ⟨e', he', herror⟩ := ih h
        exact ⟨e', List.mem_cons_of_mem e he', herror⟩
      · cases h

/-- A chain of conditions that all end in a plain line fails only where one of them does. -/
theorem chain_eq_error {lower : Expr → Except Error (List Condition)} {flag : Flag} {es : List Expr} {error : Error}
    (hplain : ∀ e ∈ es, ∀ conditions, lower e = .ok conditions →
      ∃ init last, conditions = init ++ [last] ∧ last.flag = .plain)
    (h : chain lower flag es = .error error) : ∃ e ∈ es, lower e = .error error := by
  fun_induction chain lower flag es with
  | case1 => cases h
  | case2 e => exact ⟨e, List.mem_cons_self, h⟩
  | case3 e es _ ih =>
    rw [List.forall_mem_cons] at hplain
    rcases bind_eq_error.mp h with h | ⟨lowered, hlowered, h⟩
    · exact ⟨e, List.mem_cons_self, h⟩
    · rcases bind_eq_error.mp h with h | ⟨first, _, h⟩
      · obtain ⟨init, last, rfl, hlast⟩ := hplain.1 lowered hlowered
        simp [flagLast, hlast] at h
      · rcases bind_eq_error.mp h with h | ⟨others, _, h⟩
        · obtain ⟨e', he', herror⟩ := ih hplain.2 h
          exact ⟨e', List.mem_cons_of_mem e he', herror⟩
        · cases h

/-- An error of alternatives is the error of a part of one of their branches. -/
theorem alternatives_eq_error {branches : List Expr} {error : Error} (h : alternatives branches = .error error) :
    ∃ branch ∈ branches, ∃ part ∈ branch.parts .and false, clause part = .error error := by
  induction branches with
  | nil => cases h
  | cons branch branches ih =>
    rcases bind_eq_error.mp h with h | ⟨group, _, h⟩
    · exact ⟨branch, List.mem_cons_self, all_eq_error h⟩
    · rcases bind_eq_error.mp h with h | ⟨groups, _, h⟩
      · obtain ⟨branch', hbranch', hpart⟩ := ih h
        exact ⟨branch', List.mem_cons_of_mem branch hbranch', hpart⟩
      · cases h

/-! ## Single conditions -/

/-- A condition that is no leaf and has no modifiers negates one condition or joins two. -/
theorem eq_logical_of_isUnmodified {e : Expr} (h : e.isUnmodified = true) (hbasic : ¬ e.isBasic) :
    (∃ mark right, e = .logical mark .not none right) ∨
      ∃ mark left right, ∃ c : Connective, e = .logical mark c.op (some left) right := by
  cases e with
  | logical mark op left right =>
    cases left with
    | none =>
      cases op with
      | not => exact .inl ⟨mark, right, rfl⟩
      | and | or => cases h
    | some left =>
      cases op with
      | not => cases h
      | and => exact .inr ⟨mark, left, right, .all, rfl⟩
      | or => exact .inr ⟨mark, left, right, .any, rfl⟩
  | comparison | boolean | alwaysTrue | alwaysFalse => exact absurd rfl hbasic
  | _ => cases h

/-- One step lowers two joined conditions to a chain of their parts. -/
theorem step_join (lower : Expr → Except Error (List Condition)) (mark : Mark) (c : Connective) (left right : Expr) :
    step lower (.logical mark c.op (some left) right) =
      chain lower (link c.op) ((logical mark c.op (some left) right).parts c.op false) := by
  cases c <;> rfl

/-- Joined conditions fit exactly if all their parts do. -/
theorem fits_join_iff {mark : Mark} {c : Connective} {left right : Expr}
    (h : (logical mark c.op (some left) right).isUnmodified = true) :
    (logical mark c.op (some left) right).fits 2 false = true ↔
      ∀ part ∈ (logical mark c.op (some left) right).parts c.op false, part.fits 2 false = true := by
  rw [fits_parts h c false]
  cases c <;> rfl

/-- A negation has room for what is left of it once its operand is inverted. -/
theorem fits_not {mark : Mark} {left : Option Expr} {right : Expr} (h : right.isUnmodified = true) (room : Nat) :
    (logical mark .not left right).fits (room + 2) false = right.invert.fits room false := by
  rw [fits_invert h, fits]
  simp

/-- A lowered condition has room for its negations, and its leaves are lowered. -/
theorem fits_of_clauseWithin {bound : Nat} {e : Expr} {conditions : List Condition} (he : e.isUnmodified = true)
    (h : clauseWithin bound e = .ok conditions) :
    e.fits 2 false = true ∧ ∀ leaf ∈ (e.formula false).leaves, ∃ lines, clause leaf = .ok lines := by
  induction bound generalizing e conditions with
  | zero => cases h
  | succ bound ih =>
    by_cases hbasic : e.isBasic
    · rw [clauseWithin_of_isBasic hbasic] at h
      rw [formula_of_isBasic false hbasic]
      exact ⟨fits_of_isBasic hbasic 2 false, List.forall_mem_singleton.mpr ⟨conditions, h⟩⟩
    · rw [clauseWithin] at h
      rcases eq_logical_of_isUnmodified he hbasic with ⟨mark, right, rfl⟩ | ⟨mark, left, right, c, rfl⟩
      · rw [step] at h
        split at h
        · cases h
        · rename_i hnegation
          have hright := isUnmodified_right he
          obtain ⟨hfits, hleaves⟩ := ih (isUnmodified_invert hright) h
          rw [fits_not hright 0, fits_of_isNegation_eq_false (by simpa using hnegation) 0 2, formula,
            ← formula_invert false right]
          exact ⟨hfits, hleaves⟩
      · rw [step_join] at h
        have hparts : ∀ part ∈ (logical mark c.op (some left) right).parts c.op false, part.fits 2 false = true ∧
            ∀ leaf ∈ (part.formula false).leaves, ∃ lines, clause leaf = .ok lines := by
          intro part hpart
          obtain ⟨lines, hlines⟩ := chain_eq_ok h part hpart
          exact ih (isUnmodified_of_mem_parts he part hpart) hlines
        refine ⟨(fits_join_iff he).mpr fun part hpart => (hparts part hpart).1, fun leaf hleaf => ?_⟩
        rw [leaves_formula c] at hleaf
        obtain ⟨part, hpart, hleaf⟩ := List.mem_flatMap.mp hleaf
        exact (hparts part hpart).2 leaf hleaf

/-- Why a condition is refused: for one of its leaves, or for a negation that there was no room for. -/
def Refused (e : Expr) (error : Error) : Prop :=
  (∃ leaf ∈ (e.formula false).leaves, clause leaf = .error error) ∨
    (e.fits 2 false = false ∧ ∃ part, error = .lowering (.notInvertible "Conditional") part)

/-- What is still negated once it is inverted was a negation before. -/
theorem kindName_of_isNegation_invert {e : Expr} (he : e.isUnmodified = true) (h : e.invert.isNegation = true) :
    e.kindName = "Conditional" := by
  by_cases hbasic : e.isBasic
  · cases e with
    | comparison | boolean | alwaysTrue | alwaysFalse => cases h
    | _ => cases hbasic
  · rcases eq_logical_of_isUnmodified he hbasic with ⟨mark, right, rfl⟩ | ⟨mark, left, right, c, rfl⟩
    · rfl
    · rfl

/-- A condition that is not lowered is refused for its leaves or its negations, if lowering may nest deep enough. -/
theorem refused_of_clauseWithin {bound : Nat} {e : Expr} {error : Error} (he : e.isUnmodified = true)
    (hlevels : e.levels < bound) (h : clauseWithin bound e = .error error) : Refused e error := by
  induction bound generalizing e with
  | zero => omega
  | succ bound ih =>
    by_cases hbasic : e.isBasic
    · rw [clauseWithin_of_isBasic hbasic] at h
      refine .inl ⟨e, ?_, h⟩
      rw [formula_of_isBasic false hbasic]
      exact List.mem_singleton_self e
    · rw [clauseWithin] at h
      rcases eq_logical_of_isUnmodified he hbasic with ⟨mark, right, rfl⟩ | ⟨mark, left, right, c, rfl⟩
      · have hright := isUnmodified_right he
        unfold Refused
        rw [fits_not hright 0, formula, ← formula_invert false right]
        rw [step] at h
        split at h
        · rename_i hnegation
          rw [kindName_of_isNegation_invert hright hnegation] at h
          exact .inr ⟨fits_zero_of_isNegation hnegation false, _, (Except.error.inj h).symm⟩
        · rename_i hnegation
          have hnegation : right.invert.isNegation = false := by simpa using hnegation
          have hlt := levels_invert_lt mark none hnegation
          rw [fits_of_isNegation_eq_false hnegation 0 2]
          exact ih (isUnmodified_invert hright) (by omega) h
      · rw [step_join] at h
        have hop : c.op ≠ .not := by cases c <;> decide
        have hplain : ∀ part ∈ (logical mark c.op (some left) right).parts c.op false, ∀ lines,
            clauseWithin bound part = .ok lines → ∃ init last, lines = init ++ [last] ∧ last.flag = .plain := by
          intro part hpart lines hlines
          have hbasic := isBasic_of_mem_leaves (isUnmodified_of_mem_parts he part hpart) false
          obtain ⟨init, last, hconditions, hflag, _⟩ := (faithful_clauseWithin bound hbasic hlines fun _ => 0).1
          exact ⟨init, last, hconditions, hflag⟩
        obtain ⟨part, hpart, herror⟩ := chain_eq_error hplain h
        have hlt := levels_lt_of_weight_lt (weight_lt_of_mem_parts hop part hpart)
        rcases ih (isUnmodified_of_mem_parts he part hpart) (by omega) herror with ⟨leaf, hleaf, hrefused⟩ | ⟨hfits, hkind⟩
        · refine .inl ⟨leaf, ?_, hrefused⟩
          rw [leaves_formula c]
          exact List.mem_flatMap.mpr ⟨part, hpart, hleaf⟩
        · refine .inr ⟨Bool.eq_false_iff.mpr fun hall => ?_, hkind⟩
          rw [(fits_join_iff he).mp hall part hpart] at hfits
          cases hfits

end Lowering

namespace Trigger

open Lowering TriggerScript.Expr

/-! ## Triggers -/

/-- A trigger that is not made fails in one of the chains of its condition. -/
theorem ofExpr_eq_error {e : Expr} {error : Error} (h : ofExpr e = .error error) :
    ∃ chain ∈ e.chains, clause chain = .error error := by
  unfold chains
  rcases bind_eq_error.mp h with h | ⟨core, _, h⟩
  · obtain ⟨chain, hchain, herror⟩ := all_eq_error h
    exact ⟨chain, List.mem_append_left _ hchain, herror⟩
  · rcases clauses_split e with ⟨hfind, _, _⟩ | ⟨_, disjunction, _, hfind, _, _, hbranches⟩
    · rw [hfind] at h
      cases h
    · rw [hfind] at h
      rcases bind_eq_error.mp h with h | ⟨groups, _, h⟩
      · obtain ⟨branch, hbranch, part, hpart, herror⟩ := alternatives_eq_error h
        refine ⟨part, List.mem_append_right _ (List.mem_flatten.mpr ⟨branch.parts .and false, ?_, hpart⟩), herror⟩
        rw [hbranches]
        exact List.mem_map_of_mem hbranch
      · cases h

/-- The trigger of a leaf is what the leaf is lowered to. -/
theorem ofExpr_of_isBasic {leaf : Expr} (h : leaf.isBasic) :
    ofExpr leaf = (clause leaf).map fun core => { core := core } := by
  have hparts : leaf.parts .and false = [leaf] ∧ leaf.joinsWith .or = false := by
    cases leaf with
    | comparison | boolean | alwaysTrue | alwaysFalse => exact ⟨rfl, rfl⟩
    | _ => cases h
  unfold ofExpr
  rw [hparts.1]
  cases hclause : clause leaf with
  | error error => simp [all, hparts.2, hclause, bind, Except.bind, Except.map]
  | ok lines => simp [all, hparts.2, hclause, bind, Except.bind, Except.map, pure, Except.pure]

/-- A leaf is lowered to a trigger exactly if it is lowered as a clause. -/
theorem exists_ofExpr_of_isBasic {leaf : Expr} (h : leaf.isBasic) :
    (∃ trigger, ofExpr leaf = .ok trigger) ↔ ∃ lines, clause leaf = .ok lines := by
  rw [ofExpr_of_isBasic h]
  cases clause leaf with
  | error error => simp [Except.map]
  | ok lines => simp [Except.map]

/-- A leaf has no trigger for the same error as it has no clause. -/
theorem ofExpr_eq_error_of_isBasic {leaf : Expr} (h : leaf.isBasic) {error : Error} :
    ofExpr leaf = .error error ↔ clause leaf = .error error := by
  rw [ofExpr_of_isBasic h]
  cases clause leaf with
  | error error => simp [Except.map]
  | ok lines => simp [Except.map]

/-- The leaves of a condition have triggers exactly if those of its formula are lowered. -/
theorem exists_ofExpr_leaves_iff {e : Expr} (he : e.isUnmodified = true) :
    (∀ leaf ∈ e.conditionLeaves, ∃ trigger, ofExpr leaf = .ok trigger) ↔
      ∀ leaf ∈ (e.formula false).leaves, ∃ lines, clause leaf = .ok lines := by
  rw [forall_mem_leaves_iff (fun leaf hleaf => exists_clause_invert hleaf) he false]
  exact forall₂_congr fun leaf hleaf => exists_ofExpr_of_isBasic (isBasic_of_mem_conditionLeaves he leaf hleaf)

/-- A condition without a trigger is refused for a leaf of its formula, or for a chain that has no room for its negations. -/
theorem refused_of_ofExpr {e : Expr} (he : e.isUnmodified = true) {error : Error} (h : ofExpr e = .error error) :
    (∃ leaf ∈ (e.formula false).leaves, clause leaf = .error error) ∨
      ((∃ chain ∈ e.chains, chain.fits 2 false = false) ∧
        ∃ part, error = .lowering (.notInvertible "Conditional") part) := by
  obtain ⟨chain, hchain, herror⟩ := ofExpr_eq_error h
  have hlevels := chain.levels_le
  rcases refused_of_clauseWithin (isUnmodified_of_mem_chains he chain hchain) (by omega) herror with
    ⟨leaf, hleaf, hrefused⟩ | ⟨hfits, hkind⟩
  · exact .inl ⟨leaf, mem_leaves_iff.mpr (List.mem_flatMap.mpr ⟨chain, hchain, hleaf⟩), hrefused⟩
  · exact .inr ⟨⟨chain, hchain, hfits⟩, hkind⟩

/-- A condition has a trigger exactly if the leaves of its formula are lowered and its chains have room for their
negations. -/
theorem exists_ofExpr_iff_fits {e : Expr} (he : e.isUnmodified = true) :
    (∃ trigger, ofExpr e = .ok trigger) ↔
      (∀ leaf ∈ (e.formula false).leaves, ∃ lines, clause leaf = .ok lines) ∧
        ∀ chain ∈ e.chains, chain.fits 2 false = true := by
  constructor
  · rintro ⟨trigger, h⟩
    have hchains : ∀ chain ∈ e.chains, chain.fits 2 false = true ∧
        ∀ leaf ∈ (chain.formula false).leaves, ∃ lines, clause leaf = .ok lines := by
      intro chain hchain
      obtain ⟨lines, hlines⟩ := chains_eq_ok h chain hchain
      exact fits_of_clauseWithin (isUnmodified_of_mem_chains he chain hchain) hlines
    refine ⟨fun leaf hleaf => ?_, fun chain hchain => (hchains chain hchain).1⟩
    obtain ⟨chain, hchain, hleaf⟩ := List.mem_flatMap.mp (mem_leaves_iff.mp hleaf)
    exact (hchains chain hchain).2 leaf hleaf
  · rintro ⟨hleaves, hfits⟩
    cases h : ofExpr e with
    | ok trigger => exact ⟨trigger, rfl⟩
    | error error =>
      rcases refused_of_ofExpr he h with ⟨leaf, hleaf, herror⟩ | ⟨⟨chain, hchain, hroom⟩, _⟩
      · obtain ⟨lines, hlines⟩ := hleaves leaf hleaf
        rw [hlines] at herror
        cases herror
      · rw [hfits chain hchain] at hroom
        cases hroom

/-- A condition that is built by connectives alone has a trigger exactly if its leaves have one and no chain of it has more
negations on one another than there is room for; up to four are never too many. Where it has none, that is for a leaf, as it
stands or inverted, or for a negation that was left. -/
theorem lowering_accepts_iff {e : Expr} (he : e.isUnmodified = true) :
    ((∃ trigger, ofExpr e = .ok trigger) ↔
        (∀ leaf ∈ e.conditionLeaves, ∃ trigger, ofExpr leaf = .ok trigger) ∧
          ∀ chain ∈ e.chains, chain.fits 2 false = true) ∧
      ((∀ leaf ∈ e.conditionLeaves, ∃ trigger, ofExpr leaf = .ok trigger) → e.Everywhere (·.negations ≤ 4) →
        ∃ trigger, ofExpr e = .ok trigger) ∧
      ∀ error, ofExpr e = .error error →
        (∃ leaf ∈ e.conditionLeaves, ofExpr leaf = .error error ∨ ofExpr leaf.invert = .error error) ∨
          ((∃ chain ∈ e.chains, chain.fits 2 false = false) ∧
            ∃ part, error = .lowering (.notInvertible "Conditional") part) := by
  refine ⟨?_, fun hleaves hfour => ?_, fun error h => ?_⟩
  · rw [exists_ofExpr_iff_fits he, exists_ofExpr_leaves_iff he]
  · rw [exists_ofExpr_iff_fits he, ← exists_ofExpr_leaves_iff he]
    exact ⟨hleaves, fits_of_mem_chains he hfour⟩
  · rcases refused_of_ofExpr he h with ⟨leaf, hleaf, herror⟩ | hrefused
    · obtain ⟨leaf', hleaf', hor⟩ := exists_mem_conditionLeaves he hleaf
      have hbasic := isBasic_of_mem_conditionLeaves he leaf' hleaf'
      refine .inl ⟨leaf', hleaf', ?_⟩
      rw [ofExpr_eq_error_of_isBasic hbasic, ofExpr_eq_error_of_isBasic (isBasic_invert hbasic)]
      rcases hor with rfl | rfl
      · exact .inl herror
      · exact .inr herror
    · exact .inr hrefused

/-- A condition with a number of negations in front. -/
def negatedTimes : Nat → Expr → Expr
  | 0, e => e
  | times + 1, e => .logical {} .not none (negatedTimes times e)

/-- Four negations on a comparison, beside a negated conjunction with four more. -/
def stackedNegations : Expr :=
  .logical {} .and (some (negatedTimes 4 (byteCompares 1 .equal 1)))
    (negatedTimes 1 (.logical {} .and (some (byteCompares 2 .equal 2)) (negatedTimes 4 (.boolean {} true))))

/-- A condition with four negations on one another is accepted, as its leaves are. -/
theorem lowering_accepts_iff_stackedNegations :
    stackedNegations.isUnmodified = true ∧ stackedNegations.Everywhere (·.negations ≤ 4) ∧
      (∀ leaf ∈ [byteCompares 1 .equal 1, byteCompares 2 .equal 2, .boolean {} true],
        ∃ trigger, ofExpr leaf = .ok trigger) ∧
      ∃ trigger, ofExpr stackedNegations = .ok trigger := by
  have hleaves : ∀ leaf ∈ [byteCompares 1 .equal 1, byteCompares 2 .equal 2, .boolean {} true],
      ∃ trigger, ofExpr leaf = .ok trigger := by
    simp only [List.forall_mem_cons]
    exact ⟨⟨_, rfl⟩, ⟨_, rfl⟩, ⟨_, rfl⟩, List.forall_mem_nil _⟩
  have hfour : stackedNegations.Everywhere (·.negations ≤ 4) := by decide
  exact ⟨rfl, hfour, hleaves, (lowering_accepts_iff (e := stackedNegations) rfl).2.1 hleaves hfour⟩

/-- A fifth negation on a comparison that has a trigger of its own is one too many. -/
theorem fifth_negation_is_refused :
    (negatedTimes 5 (byteCompares 1 .equal 1)).isUnmodified = true ∧
      (negatedTimes 5 (byteCompares 1 .equal 1)).conditionLeaves = [byteCompares 1 .equal 1] ∧
      (∃ trigger, ofExpr (byteCompares 1 .equal 1) = .ok trigger) ∧
      ofExpr (negatedTimes 5 (byteCompares 1 .equal 1)) =
        .error (.lowering (.notInvertible "Conditional") (negatedTimes 3 (byteCompares 1 .equal 1))) :=
  ⟨rfl, rfl, ⟨_, rfl⟩, rfl⟩

end Trigger

end TriggerScript
