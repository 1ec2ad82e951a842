import TriggerScript.Proofs.Lowering.Weights

/-!
# How deep lowering nests

What lowering goes into is written down here without a bound of its own, as levels over whatever lies beyond them. Every
condition that one step goes into is lighter than the condition before it, or it is as heavy and no negation. So what lies
beyond twice the weight is never asked.
-/

namespace TriggerScript

namespace Expr

/-! ## Splitting, level by level -/

/-- Splitting a negated condition is splitting what inverting makes of it. -/
theorem parts_invert (c : Connective) (e : Expr) : e.invert.parts c.op false = e.parts c.op true := by
  fun_induction invert e with
  | case2 mark left right ihl ihr =>
    cases c with
    | all => simp [parts, Connective.op, LogicalOp.dual, invert]
    | any => simpa [parts, Connective.op, LogicalOp.dual] using congr (congrArg HAppend.hAppend ihl) ihr
  | case3 mark left right ihl ihr =>
    cases c with
    | all => simpa [parts, Connective.op, LogicalOp.dual] using congr (congrArg HAppend.hAppend ihl) ihr
    | any => simp [parts, Connective.op, LogicalOp.dual, invert]
  | case4 mark left right => simp [parts]
  | case8 e _ hand hor hnot =>
    have hsingle : e.parts c.op true = [e.invert] := by
      cases e with
      | logical mark op left right =>
        cases op with
        | not => exact absurd rfl (hnot mark left right)
        | and =>
          cases left with
          | none => simp [parts]
          | some left => exact absurd rfl (hand mark left right)
        | or =>
          cases left with
          | none => simp [parts]
          | some left => exact absurd rfl (hor mark left right)
      | _ => simp [parts]
    rw [negate, parts, hsingle, ite_self]
  | _ => cases c <;> simp [parts, invert]

/-- One level of splitting a condition, over the splitting of its operands and of inverted ones. -/
def splitOver (op : LogicalOp) (split : Expr → List Expr) : Expr → List Expr
  | .logical _ .not _ right => if right.invert.joinsWith op then split right.invert else [right.invert]
  | .logical mark op' (some left) right =>
    if op' = op then split left ++ split right else [.logical mark op' (some left) right]
  | e => [e]

/-- Splitting a number of levels deep, over whatever splits what is nested deeper. -/
def splitNested (op : LogicalOp) (beyond : Expr → List Expr) : Nat → Expr → List Expr
  | 0 => beyond
  | levels + 1 => splitOver op (splitNested op beyond levels)

/-- Splitting does not ask beyond the levels of a condition. -/
theorem splitNested_eq (c : Connective) (beyond : Expr → List Expr) {bound : Nat} {e : Expr} (h : e.levels < bound) :
    splitNested c.op beyond bound e = e.parts c.op false := by
  induction bound generalizing e with
  | zero => omega
  | succ bound ih =>
    rw [splitNested]
    cases e with
    | logical mark op left right =>
      by_cases hop : op = .not
      · subst hop
        rw [splitOver, parts]
        split
        · rename_i hjoins
          have hlt := levels_invert_lt mark left (isNegation_of_joinsWith hjoins)
          rw [ih (by omega), parts_invert]
        · rfl
      · cases left with
        | none =>
          cases op with
          | not => exact absurd rfl hop
          | and | or => rfl
        | some left =>
          obtain ⟨hleft, hright⟩ := weight_operands_lt mark hop left right
          have hleft := levels_lt_of_weight_lt hleft
          have hright := levels_lt_of_weight_lt hright
          rw [splitOver, parts, ih (by omega), ih (by omega)]
          · exact fun heq => hop heq
          · exact fun heq => hop heq
    | _ => rfl

end Expr

namespace Lowering

open TriggerScript.Expr

/-! ## Lowering, level by level -/

section Over

variable (lower : Expr → Except Error (List Condition))

/-- One level of lowering a condition, over the lowering of others. A connective that lacks its left operand is its own only
part. -/
def lowerOver (e : Expr) : Except Error (List Condition) :=
  match e with
  | .logical _ .and none _ | .logical _ .or none _ => lower e
  | _ => step lower e

/-- One level of flagging a condition as a whole, over the flagging of its parts. -/
def flaggedOver (flagPart : Expr → Except Error (List Condition)) (flag : Flag) (condition : Expr) :
    Except Error (List Condition) :=
  if (flag = .resetIf || flag = .pauseIf) && condition.joinsWith .or then all flagPart (condition.parts .or false)
  else allFlagged lower flag [condition]

end Over

/-- Lowering a number of levels deep, over whatever lowers what is nested deeper. -/
def lowerNested (beyond : Expr → Except Error (List Condition)) : Nat → Expr → Except Error (List Condition)
  | 0 => beyond
  | levels + 1 => lowerOver (lowerNested beyond levels)

section Congruence

variable {lower lower' : Expr → Except Error (List Condition)} {es : List Expr} {flag : Flag}

/-- Conditions are lowered alike one after the other if each of them is. -/
theorem all_congr (h : ∀ e ∈ es, lower e = lower' e) : all lower es = all lower' es := by
  induction es with
  | nil => rfl
  | cons e es ih =>
    rw [List.forall_mem_cons] at h
    rw [all, all, h.1, ih h.2]

/-- Flagged conditions are lowered alike if each of them is. -/
theorem allFlagged_congr (h : ∀ e ∈ es, lower e = lower' e) : allFlagged lower flag es = allFlagged lower' flag es := by
  induction es with
  | nil => rfl
  | cons e es ih =>
    rw [List.forall_mem_cons] at h
    rw [allFlagged, allFlagged, h.1, ih h.2]

/-- A chain is lowered alike if each condition of it is. -/
theorem chain_congr (h : ∀ e ∈ es, lower e = lower' e) : chain lower flag es = chain lower' flag es := by
  fun_induction chain lower flag es with
  | case1 => rfl
  | case2 e => exact h e (List.mem_singleton_self e)
  | case3 e es hmore ih =>
    rw [List.forall_mem_cons] at h
    rw [chain, h.1, ih h.2]
    exact hmore

end Congruence

/-- Two ways to lower conditions agree on those that have all their left operands, up to a weight. -/
def AgreeUpTo (weight : Nat) (lower lower' : Expr → Except Error (List Condition)) : Prop :=
  ∀ e : Expr, e.Everywhere (hasLeftOperand · = true) → e.weight ≤ weight → lower e = lower' e

namespace AgreeUpTo

variable {lower lower' : Expr → Except Error (List Condition)} {condition : Expr}
  (h : AgreeUpTo condition.weight lower lower') (hleft : condition.Everywhere (hasLeftOperand · = true))
include h hleft

/-- The parts of a condition are lowered alike. -/
theorem parts (op : LogicalOp) : ∀ part ∈ condition.parts op false, lower part = lower' part :=
  fun part hpart => h part (hasLeftOperand_of_mem_parts hleft part hpart) (weight_le_of_mem_parts part hpart)

/-- The condition itself is lowered alike. -/
theorem self : lower condition = lower' condition :=
  h condition hleft (Nat.le_refl _)

/-- Flagging a condition asks for its parts at most. -/
theorem flagged (flag : Flag) : Lowering.flagged lower flag condition = Lowering.flagged lower' flag condition := by
  unfold Lowering.flagged
  rw [allFlagged_congr (h.parts hleft .or), allFlagged_congr (List.forall_mem_singleton.mpr (h.self hleft))]

/-- Counting a conjunction asks for its parts, and for the conditions of those that reset it. -/
theorem countedConjunction :
    Lowering.countedConjunction lower condition = Lowering.countedConjunction lower' condition := by
  have hresets : ∀ reset ∈ (condition.parts .and false).filterMap reset?, lower reset = lower' reset := by
    intro reset hreset
    obtain ⟨part, hpart, hreset⟩ := List.mem_filterMap.mp hreset
    obtain ⟨mark, rfl⟩ := eq_of_reset? hreset
    refine h reset ((hasLeftOperand_of_mem_parts hleft _ hpart).part (by simp [children])) ?_
    exact Nat.le_trans (Nat.le_of_lt (weight_modified_lt mark .never reset)) (weight_le_of_mem_parts _ hpart)
  have hcounted : ∀ part ∈ (condition.parts .and false).filter fun part => (reset? part).isNone,
      lower part = lower' part :=
    fun part hpart => h.parts hleft .and part (List.mem_filter.mp hpart).1
  unfold Lowering.countedConjunction
  dsimp only
  rw [allFlagged_congr hresets, chain_congr hcounted]

/-- A repeated condition is lowered alike. -/
theorem repeated (count : UInt32) : Lowering.repeated lower count condition = Lowering.repeated lower' count condition := by
  unfold Lowering.repeated Lowering.counted
  rw [h.countedConjunction hleft, chain_congr (h.parts hleft .or), h.self hleft]

/-- A modified condition is lowered alike. -/
theorem modified (e : Expr) (modifier : Modifier) :
    Lowering.modified lower e modifier condition = Lowering.modified lower' e modifier condition := by
  cases modifier with
  | repeated count => exact h.repeated hleft count
  | never | «unless» | triggerWhen | measured => exact h.flagged hleft _
  | deduct => rfl

end AgreeUpTo

/-- A tally asks for its entries, and for the conditions of those that are deducted. -/
theorem AgreeUpTo.tally {lower lower' : Expr → Except Error (List Condition)} {entries : List Expr}
    (h : AgreeUpTo (listWeight entries) lower lower')
    (hleft : ∀ entry ∈ entries, entry.Everywhere (hasLeftOperand · = true)) (e : Expr) (target : UInt32) :
    Lowering.tally lower e target entries = Lowering.tally lower' e target entries := by
  have hentries : ∀ entry ∈ entries, lower entry = lower' entry :=
    fun entry hentry => h entry (hleft entry hentry) (weight_le_listWeight hentry)
  have hdeducted : ∀ condition ∈ entries.filterMap deduction?, lower condition = lower' condition := by
    intro condition hcondition
    obtain ⟨entry, hentry, hcondition⟩ := List.mem_filterMap.mp hcondition
    obtain ⟨mark, rfl⟩ := eq_of_deduction? hcondition
    refine h condition ((hleft _ hentry).part (by simp [children])) ?_
    exact Nat.le_trans (Nat.le_of_lt (weight_modified_lt mark .deduct condition)) (weight_le_listWeight hentry)
  have hcounted : ∀ entry ∈ entries.filter fun entry => (deduction? entry).isNone, lower entry = lower' entry :=
    fun entry hentry => hentries entry (List.mem_filter.mp hentry).1
  unfold Lowering.tally
  dsimp only
  cases hlast : (entries.filter fun entry => (deduction? entry).isNone).getLast? with
  | none => rfl
  | some last =>
    dsimp only
    rw [allFlagged_congr fun entry hentry => hcounted entry (List.dropLast_subset _ hentry),
      allFlagged_congr hdeducted, hcounted last (List.mem_of_getLast? hlast)]

/-- One step of lowering asks only for conditions that nest less. -/
theorem step_congr {lower lower' : Expr → Except Error (List Condition)} {e : Expr}
    (hleft : e.Everywhere (hasLeftOperand · = true))
    (h : ∀ part : Expr, part.Everywhere (hasLeftOperand · = true) → part.levels < e.levels → lower part = lower' part) :
    step lower e = step lower' e := by
  have hlighter : ∀ {weight}, weight < e.weight → AgreeUpTo weight lower lower' := by
    intro weight hlt part hpart hle
    exact h part hpart (levels_lt_of_weight_lt (Nat.lt_of_le_of_lt hle hlt))
  cases e with
  | logical mark op left right =>
    by_cases hop : op = .not
    · subst hop
      rw [step, step]
      split
      · rfl
      · rename_i hnegation
        have hright : right.Everywhere (hasLeftOperand · = true) := hleft.part (by simp [children])
        exact h _ (hright.invert_connects rfl rfl) (levels_invert_lt mark left (by simpa using hnegation))
    · cases left with
      | none =>
        cases op with
        | not => exact absurd rfl hop
        | and | or => rfl
      | some left =>
        have hparts : ∀ part ∈ (Expr.logical mark op (some left) right).parts op false, lower part = lower' part := by
          intro part hpart
          refine h part (hasLeftOperand_of_mem_parts hleft part hpart) ?_
          exact levels_lt_of_weight_lt (weight_lt_of_mem_parts hop part hpart)
        rw [step, step, chain_congr hparts]
        · exact fun heq => hop heq
        · exact fun heq => hop heq
  | modified mark modifier condition =>
    have hcondition : AgreeUpTo condition.weight lower lower' := hlighter (by simp [weight])
    exact hcondition.modified (hleft.part (by simp [children])) _ modifier
  | tally mark target entries =>
    have hentries : AgreeUpTo (listWeight entries) lower lower' := hlighter (by simp [weight])
    exact hentries.tally (fun entry hentry => hleft.part hentry) _ target
  | _ => rfl

/-- A condition with all its left operands is lowered as one step of lowering does. -/
theorem lowerOver_eq_step (lower : Expr → Except Error (List Condition)) {e : Expr} (h : e.hasLeftOperand = true) :
    lowerOver lower e = step lower e := by
  unfold lowerOver
  split
  · cases h
  · cases h
  · rfl

/-- Lowering does not ask beyond the levels of a condition, so the bound it stops at is never reached. -/
theorem lowerNested_eq_within (beyond : Expr → Except Error (List Condition)) {levels bound : Nat} {e : Expr}
    (hleft : e.Everywhere (hasLeftOperand · = true)) (hlevels : e.levels < levels) (hbound : e.levels < bound) :
    lowerNested beyond levels e = clauseWithin bound e := by
  induction levels generalizing bound e with
  | zero => omega
  | succ levels ih =>
    cases bound with
    | zero => omega
    | succ bound =>
      rw [lowerNested, clauseWithin, lowerOver_eq_step _ hleft.root]
      exact step_congr hleft fun part hpart hlt => ih hpart (by omega) (by omega)

/-- Nested deep enough for a weight, lowering agrees with the unbounded one up to this weight. -/
theorem lowerNested_eq (beyond : Expr → Except Error (List Condition)) {levels weight : Nat} (h : 2 * weight + 2 ≤ levels) :
    AgreeUpTo weight (lowerNested beyond levels) clause := by
  intro e hleft hle
  have hlevels := e.levels_le
  exact lowerNested_eq_within beyond hleft (by omega) (by omega)

/-- The parts of a disjunction are no disjunctions, so flagging asks no deeper than for them. -/
theorem flaggedOver_eq (lower flagPart : Expr → Except Error (List Condition)) (flag : Flag) (condition : Expr) :
    flaggedOver lower (flaggedOver lower flagPart flag) flag condition = flagged lower flag condition := by
  have hparts : ∀ parts : List Expr, (∀ part ∈ parts, part.joinsWith .or = false) →
      all (flaggedOver lower flagPart flag) parts = allFlagged lower flag parts := by
    intro parts hjoins
    induction parts with
    | nil => rfl
    | cons part parts ih =>
      rw [List.forall_mem_cons] at hjoins
      rw [all, allFlagged, ih hjoins.2, flaggedOver, hjoins.1, Bool.and_false, if_neg Bool.false_ne_true, allFlagged]
      cases lower part with
      | error error => rfl
      | ok conditions =>
        change (flagLast flag part conditions >>= _) >>= _ = flagLast flag part conditions >>= _
        cases flagLast flag part conditions with
        | error error => rfl
        | ok first => simp [allFlagged, bind, Except.bind, pure, Except.pure]
  unfold flaggedOver flagged
  split
  · exact hparts _ (joinsWith_of_mem_parts .any)
  · rfl

/-- The alternative groups of a disjunction, over ways to split and to lower conditions. -/
def alternativesOver (split : LogicalOp → Expr → List Expr) (lower : Expr → Except Error (List Condition)) :
    List Expr → Except Error (List (List Condition))
  | [] => .ok []
  | branch :: branches => do
    let group ← all lower (split .and branch)
    let groups ← alternativesOver split lower branches
    return group :: groups

/-- The trigger of a condition, over ways to split and to lower conditions. -/
def triggerOver (split : LogicalOp → Expr → List Expr) (lower : Expr → Except Error (List Condition)) (e : Expr) :
    Except Error Trigger := do
  let clauses := split .and e
  let core ← all lower (clauses.eraseP (·.joinsWith .or))
  match clauses.find? (·.joinsWith .or) with
  | none => return { core := core }
  | some disjunction =>
    let groups ← alternativesOver split lower (split .or disjunction)
    return { core := if core.isEmpty then [.always] else core, alternatives := groups }

section Trigger

variable {split : LogicalOp → Expr → List Expr} {lower : Expr → Except Error (List Condition)} {weight : Nat}
  (hsplit : ∀ (c : Connective) (e : Expr), e.weight ≤ weight → split c.op e = e.parts c.op false)
  (hlower : AgreeUpTo weight lower clause)
include hsplit hlower

/-- Alternatives of bounded weight are lowered as without bounds. -/
theorem alternativesOver_eq {branches : List Expr}
    (h : ∀ branch ∈ branches, branch.Everywhere (hasLeftOperand · = true) ∧ branch.weight ≤ weight) :
    alternativesOver split lower branches = alternatives branches := by
  induction branches with
  | nil => rfl
  | cons branch branches ih =>
    rw [List.forall_mem_cons] at h
    obtain ⟨⟨hleft, hle⟩, hothers⟩ := h
    have hbranch : split .and branch = branch.parts .and false := hsplit .all branch hle
    have hparts : ∀ part ∈ branch.parts .and false, lower part = clause part := by
      intro part hpart
      exact hlower part (hasLeftOperand_of_mem_parts hleft part hpart) (Nat.le_trans (weight_le_of_mem_parts part hpart) hle)
    rw [alternativesOver, alternatives, hbranch, all_congr hparts, ih hothers]

/-- A trigger asks for the parts of its condition, and for those of the branches of one of them. -/
theorem triggerOver_eq {e : Expr} (hleft : e.Everywhere (hasLeftOperand · = true)) (hle : e.weight ≤ weight) :
    triggerOver split lower e = Trigger.ofExpr e := by
  have hclauses : split .and e = e.parts .and false := hsplit .all e hle
  have hclause : ∀ part ∈ e.parts .and false, part.Everywhere (hasLeftOperand · = true) ∧ part.weight ≤ weight :=
    fun part hpart => ⟨hasLeftOperand_of_mem_parts hleft part hpart, Nat.le_trans (weight_le_of_mem_parts part hpart) hle⟩
  have hcore : ∀ part ∈ (e.parts .and false).eraseP (·.joinsWith .or), lower part = clause part := by
    intro part hpart
    obtain ⟨hpartLeft, hpartLe⟩ := hclause part (List.mem_of_mem_eraseP hpart)
    exact hlower part hpartLeft hpartLe
  unfold triggerOver Trigger.ofExpr
  dsimp only
  rw [hclauses, all_congr hcore]
  cases hfind : (e.parts .and false).find? (·.joinsWith .or) with
  | none => rfl
  | some disjunction =>
    obtain ⟨hdisjunctionLeft, hdisjunctionLe⟩ := hclause disjunction (List.mem_of_find?_eq_some hfind)
    have hsplitDisjunction : split .or disjunction = disjunction.parts .or false := hsplit .any disjunction hdisjunctionLe
    dsimp only
    rw [hsplitDisjunction, alternativesOver_eq hsplit hlower]
    intro branch hbranch
    exact ⟨hasLeftOperand_of_mem_parts hdisjunctionLeft branch hbranch,
      Nat.le_trans (weight_le_of_mem_parts branch hbranch) hdisjunctionLe⟩

end Trigger

/-- Lowering ends: for a condition that has all its left operands, none of the routines asks for anything that is nested
deeper than twice the weight of the condition. -/
theorem lowering_terminates {e : Expr} (hleft : e.Everywhere (hasLeftOperand · = true)) {bound : Nat}
    (hbound : 2 * e.weight + 2 ≤ bound) (beyondSplit : LogicalOp → Expr → List Expr)
    (beyond beyondFlag : Expr → Except Error (List Condition)) :
    let split := fun op => splitNested op (beyondSplit op) bound
    let lower := lowerNested beyond bound
    (∀ c : Connective, split c.op e = e.parts c.op false) ∧ lower e = clause e ∧
      (∀ count, repeated lower count e = repeated clause count e) ∧
      (∀ flag, flaggedOver lower (flaggedOver lower beyondFlag flag) flag e = flagged clause flag e) ∧
      (∀ mark target entries, e = .tally mark target entries →
        tally lower e target entries = tally clause e target entries) ∧
      triggerOver split lower e = Trigger.ofExpr e := by
  intro split lower
  have hsplit : ∀ (c : Connective) (part : Expr), part.weight ≤ e.weight → split c.op part = part.parts c.op false := by
    intro c part hle
    have hlevels := part.levels_le
    exact splitNested_eq c _ (by omega)
  have hlower : AgreeUpTo e.weight lower clause := lowerNested_eq beyond hbound
  refine ⟨fun c => hsplit c e (Nat.le_refl _), hlower.self hleft, hlower.repeated hleft, fun flag => ?_, ?_,
    triggerOver_eq hsplit hlower hleft (Nat.le_refl _)⟩
  · rw [flaggedOver_eq, hlower.flagged hleft]
  · rintro mark target entries rfl
    have hentries : AgreeUpTo (listWeight entries) lower clause :=
      fun part hpart hle => hlower part hpart (by simp [Expr.weight]; omega)
    exact hentries.tally (fun entry hentry => hleft.part hentry) _ target

/-- A negated conjunction of a condition under two negations and of a modified condition under one; the modified condition is
counted and holds a reset with two negations. -/
def negatedModifiers : Expr :=
  let reset : Expr := .modified {} .never (.logical {} .not none (.logical {} .not none (byteIsOne 3)))
  let counted : Expr := .modified {} (.repeated 3) (joined .and (byteIsOne 2) reset)
  .logical {} .not none (joined .and (.logical {} .not none (.logical {} .not none (byteIsOne 1)))
    (.logical {} .not none (.modified {} .never counted)))

/-- Negated modifiers, whose inversion is lowered again, need no more levels than their weight allows. -/
theorem lowering_terminates_negatedModifiers :
    negatedModifiers.Everywhere (hasLeftOperand · = true) ∧ 2 * negatedModifiers.weight + 2 = 12 ∧
      (∃ trigger, Trigger.ofExpr negatedModifiers = .ok trigger ∧
        trigger.wire = "1=1$0xH000001!=1$Z:0xH000003=1_R:0xH000002=1.3.") ∧
      ∀ (beyondSplit : LogicalOp → Expr → List Expr) (beyond : Expr → Except Error (List Condition)),
        triggerOver (fun op => splitNested op (beyondSplit op) 12) (lowerNested beyond 12) negatedModifiers =
          Trigger.ofExpr negatedModifiers := by
  have hleft : negatedModifiers.Everywhere (hasLeftOperand · = true) := by decide +kernel
  refine ⟨hleft, by decide, ⟨_, rfl, by decide⟩, fun beyondSplit beyond => ?_⟩
  exact (lowering_terminates hleft (by decide : 2 * negatedModifiers.weight + 2 ≤ 12) beyondSplit beyond beyond).2.2.2.2.2

end Lowering

end TriggerScript
