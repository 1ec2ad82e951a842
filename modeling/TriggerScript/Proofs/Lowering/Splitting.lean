import TriggerScript.Proofs.Lowering.Meaning

/-!
# Splitting conditions

A trigger is made from the clauses of its condition, and from the branches of the first disjunction among them. Splitting
keeps the truth of the condition, whatever its leaves stand for, as long as a comparison and its inverted one never agree
(`Expr.splitting_keeps_truth`). This says nothing yet about the lines of the parts: comparisons, modified conditions and
tallies are all leaves here.
-/

namespace TriggerScript

namespace Expr

/-- Whether a condition is true, given which leaves are. -/
def holdsUnder (ν : Expr → Bool) : Expr → Bool
  | .logical _ .not none right => !right.holdsUnder ν
  | .logical _ .and (some left) right => left.holdsUnder ν && right.holdsUnder ν
  | .logical _ .or (some left) right => left.holdsUnder ν || right.holdsUnder ν
  | e => ν e

/-- Whether the connectives above the leaves of a condition have the operands that they need: negations one, and the others
two. -/
def isWellJoined : Expr → Bool
  | .logical _ .not none right => right.isWellJoined
  | .logical _ .and (some left) right | .logical _ .or (some left) right => left.isWellJoined && right.isWellJoined
  | .logical .. => false
  | _ => true

/-- A leaf and what inverting makes of it are never true together, and never false together. -/
structure RespectsNegation (ν : Expr → Bool) : Prop where
  comparison : ∀ mark (op : ComparisonOp) left right,
    ν (.comparison mark op.invert left right) = !ν (.comparison mark op left right)
  boolean : ∀ mark value, ν (.boolean mark !value) = !ν (.boolean mark value)
  always : ∀ mark, ν (.alwaysFalse mark) = !ν (.alwaysTrue mark)

/-- The truth that comparisons have if their sides are ordered in some way, and truth values by themselves. -/
def orderedBy (order : Expr → Expr → Ordering) (others : Expr → Bool) : Expr → Bool
  | .comparison _ op left right => op.holds (order left right)
  | .boolean _ value => value
  | .alwaysTrue _ => true
  | .alwaysFalse _ => false
  | e => others e

/-- Truths of comparisons by an order respect negation. -/
theorem respectsNegation_orderedBy (order : Expr → Expr → Ordering) (others : Expr → Bool) :
    RespectsNegation (orderedBy order others) where
  comparison _ op left right := op.holds_invert (order left right)
  boolean _ _ := rfl
  always _ := rfl

variable {ν : Expr → Bool} {e : Expr}

/-- A well-joined negation has one operand, which is well-joined. -/
theorem isWellJoined_of_not {mark : Mark} {left : Option Expr} {right : Expr}
    (h : (logical mark .not left right).isWellJoined = true) : left = none ∧ right.isWellJoined = true := by
  cases left with
  | none => exact ⟨rfl, h⟩
  | some left => cases h

/-- The operands of a well-joined connective are well-joined. -/
theorem isWellJoined_of_some {mark : Mark} {op : LogicalOp} {left right : Expr}
    (h : (logical mark op (some left) right).isWellJoined = true) :
    left.isWellJoined = true ∧ right.isWellJoined = true := by
  cases op with
  | and | or => exact Bool.and_eq_true_iff.mp h
  | not => cases h

/-! ## Inverting -/

/-- Inverting a condition turns its truth over. -/
theorem holdsUnder_invert (hν : RespectsNegation ν) (h : e.isWellJoined = true) :
    e.invert.holdsUnder ν = !e.holdsUnder ν := by
  fun_induction invert e with
  | case1 mark op left right => exact hν.comparison mark op left right
  | case2 mark left right ihl ihr =>
    obtain ⟨hl, hr⟩ := isWellJoined_of_some h
    rw [holdsUnder, holdsUnder, ihl hl, ihr hr, Bool.not_and]
  | case3 mark left right ihl ihr =>
    obtain ⟨hl, hr⟩ := isWellJoined_of_some h
    rw [holdsUnder, holdsUnder, ihl hl, ihr hr, Bool.not_or]
  | case4 mark left right =>
    obtain ⟨rfl, _⟩ := isWellJoined_of_not h
    rw [holdsUnder, Bool.not_not]
  | case5 mark value => exact hν.boolean mark value
  | case6 mark => exact hν.always mark
  | case7 mark => simp [holdsUnder, hν.always mark]
  | case8 e => rw [negate, holdsUnder]

/-- An inverted condition is well-joined if the condition is. -/
theorem isWellJoined_invert (h : e.isWellJoined = true) : e.invert.isWellJoined = true := by
  fun_induction invert e with
  | case2 mark left right ihl ihr | case3 mark left right ihl ihr =>
    obtain ⟨hl, hr⟩ := isWellJoined_of_some h
    rw [isWellJoined, ihl hl, ihr hr, Bool.and_true]
  | case4 mark left right => exact (isWellJoined_of_not h).2
  | case8 e => rwa [negate, isWellJoined]
  | _ => rfl

/-- A condition has the truth of its formula, and its negation that of the negated formula. -/
theorem truth_map_formula (hν : RespectsNegation ν) (h : e.isWellJoined = true) (negated : Bool) :
    ((e.formula negated).map (holdsUnder ν)).truth = (negated ^^ e.holdsUnder ν) := by
  fun_induction formula negated e with
  | case1 negated mark left right ih =>
    obtain ⟨rfl, hright⟩ := isWellJoined_of_not h
    rw [ih hright, holdsUnder, Bool.not_xor, Bool.xor_not]
  | case2 negated mark left right ihl ihr | case3 negated mark left right ihl ihr =>
    obtain ⟨hl, hr⟩ := isWellJoined_of_some h
    rw [Formula.map, Formula.truth, ihl hl, ihr hr, holdsUnder]
    cases negated <;> simp [Connective.under, Connective.combine]
  | case4 negated e =>
    cases negated with
    | false => exact (Bool.false_xor _).symm
    | true => exact (holdsUnder_invert hν h).trans (Bool.true_xor _).symm

/-! ## The parts of a condition -/

/-- The parts of a well-joined condition are well-joined. -/
theorem isWellJoined_of_mem_parts {op : LogicalOp} {negated : Bool} (h : e.isWellJoined = true) :
    ∀ part ∈ e.parts op negated, part.isWellJoined = true := by
  fun_induction parts op negated e with
  | case1 mark left right _ ih => exact ih (isWellJoined_of_not h).2
  | case2 mark left right _ => exact List.forall_mem_singleton.mpr (isWellJoined_invert (isWellJoined_of_not h).2)
  | case3 mark left right _ ihl ihr | case7 mark op left right _ _ ihl ihr =>
    obtain ⟨hl, hr⟩ := isWellJoined_of_some h
    exact List.forall_mem_append.mpr ⟨ihl hl, ihr hr⟩
  | case4 | case5 => exact List.forall_mem_singleton.mpr h
  | case6 mark left right ih => exact ih (isWellJoined_of_not h).2
  | case8 | case9 => exact List.forall_mem_singleton.mpr (isWellJoined_invert h)

/-- No part joins operands with the connective that the parts are joined by. -/
theorem joinsWith_of_mem_parts (c : Connective) {negated : Bool} :
    ∀ part ∈ e.parts c.op negated, part.joinsWith c.op = false := by
  fun_induction parts c.op negated e with
  | case1 mark left right _ ih => exact ih
  | case2 mark left right hother => simpa using hother
  | case3 mark left right _ ihl ihr => exact List.forall_mem_append.mpr ⟨ihl, ihr⟩
  | case4 mark op left right _ hother => simpa [joinsWith] using hother
  | case5 e _ hsome =>
    refine List.forall_mem_singleton.mpr ?_
    unfold joinsWith
    split
    · exact absurd rfl (hsome _ _ _ _)
    · rfl
  | case6 mark left right ih => exact ih
  | case7 mark op left right _ hd ihl ihr => exact List.forall_mem_append.mpr ⟨ihl, ihr⟩
  | case8 mark op left right hnot hother =>
    refine List.forall_mem_singleton.mpr ?_
    cases op with
    | and | or => exact decide_eq_false hother
    | not => exact absurd rfl hnot
  | case9 e hnot hsome =>
    refine List.forall_mem_singleton.mpr ?_
    cases e with
    | logical mark op left right =>
      cases left with
      | some left => exact absurd rfl (hsome _ _ _ _)
      | none =>
        cases op with
        | and | or => rfl
        | not => exact absurd rfl (hnot _ _ _)
    | _ => rfl

/-- There are no branches exactly if no clause is a disjunction. -/
theorem branches_eq_nil_iff : e.branches = [] ↔ ∀ clause ∈ e.parts .and false, clause.joinsWith .or = false := by
  have hnone := @List.find?_eq_none Expr (·.joinsWith .or) (e.parts .and false)
  simp only [Bool.not_eq_true] at hnone
  rw [← hnone]
  rcases clauses_split e with ⟨hfind, hbranches, _⟩ | ⟨_, disjunction, _, hfind, _, _, hbranches⟩
  · simp [hfind, hbranches]
  · have hne : disjunction.parts .or false ≠ [] := parts_ne_nil .any false disjunction
    simp [hfind, hbranches, hne]

/-- What all parts of a condition have, and all parts of these, the chains of the condition have. -/
theorem forall_mem_chains {p q : Expr → Prop}
    (hparts : ∀ (c : Connective) (e : Expr), p e → ∀ part ∈ e.parts c.op false, q part) (hq : ∀ part, q part → p part)
    (h : p e) : ∀ chain ∈ e.chains, q chain := by
  have hclauses := hparts .all e h
  unfold chains
  rcases clauses_split e with ⟨_, hbranches, hcore⟩ | ⟨before, disjunction, after, _, heq, hcore, hbranches⟩
  · rw [hbranches, hcore, List.flatten_nil, List.append_nil]
    exact hclauses
  · rw [Connective.op, heq, List.forall_mem_append, List.forall_mem_cons] at hclauses
    obtain ⟨hbefore, hdisjunction, hafter⟩ := hclauses
    rw [hcore, hbranches]
    refine List.forall_mem_append.mpr ⟨List.forall_mem_append.mpr ⟨hbefore, hafter⟩, fun part hpart => ?_⟩
    obtain ⟨parts, hmem, hpart⟩ := List.mem_flatten.mp hpart
    obtain ⟨branch, hbranch, rfl⟩ := List.mem_map.mp hmem
    have hbranch := hparts .any disjunction (hq disjunction hdisjunction) branch hbranch
    exact hparts .all branch (hq branch hbranch) part hpart

/-- The chains of a well-joined condition are well-joined. -/
theorem isWellJoined_of_mem_chains (h : e.isWellJoined = true) : ∀ chain ∈ e.chains, chain.isWellJoined = true :=
  forall_mem_chains (p := (·.isWellJoined = true)) (fun _ _ h => isWellJoined_of_mem_parts h) (fun _ h => h) h

/-- Splitting a condition into parts keeps its truth: a conjunction is true if all its parts are, and a disjunction if one
is. Only parts that are joined otherwise are left. So a condition is true if all its clauses but the first disjunction are,
and all parts of some branch of the disjunction, if there is one. -/
theorem splitting_keeps_truth (hν : RespectsNegation ν) (h : e.isWellJoined = true) :
    (e.holdsUnder ν = true ↔ ∀ part ∈ e.parts .and false, part.holdsUnder ν = true) ∧
      (e.holdsUnder ν = true ↔ ∃ part ∈ e.parts .or false, part.holdsUnder ν = true) ∧
      (∀ c : Connective, ∀ part ∈ e.parts c.op false, part.joinsWith c.op = false) ∧
      (e.holdsUnder ν = true ↔
        (∀ clause ∈ e.coreClauses, clause.holdsUnder ν = true) ∧
          ((∀ clause ∈ e.parts .and false, clause.joinsWith .or = false) ∨
            ∃ branch ∈ e.branches, ∀ part ∈ branch, part.holdsUnder ν = true)) := by
  have htruth : ∀ {part : Expr}, part.isWellJoined = true → truthUnder (holdsUnder ν) part = part.holdsUnder ν := by
    intro part hpart
    rw [truthUnder, truth_map_formula hν hpart, Bool.false_xor]
  have hparts : ∀ op, ∀ part ∈ e.parts op false, truthUnder (holdsUnder ν) part = part.holdsUnder ν :=
    fun op part hpart => htruth (isWellJoined_of_mem_parts h part hpart)
  refine ⟨?_, ?_, fun c => joinsWith_of_mem_parts c, ?_⟩
  · rw [← htruth h, truthUnder, truth_formula_all, List.all_eq_true]
    exact forall₂_congr fun part hpart => by rw [← hparts .and part hpart, truthUnder]
  · rw [← htruth h, truthUnder, truth_formula_any, List.any_eq_true]
    exact exists_congr fun part => and_congr_right fun hpart => by rw [← hparts .or part hpart, truthUnder]
  · have hchains : ∀ chain ∈ e.chains, truthUnder (holdsUnder ν) chain = chain.holdsUnder ν :=
      fun chain hchain => htruth (isWellJoined_of_mem_chains h chain hchain)
    rw [← htruth h, truth_eq_splitValue, splitValue_congr hchains, splitValue_eq_true, branches_eq_nil_iff]

/-- A comparison of a byte with a number. -/
def byteCompares (address : UInt32) (op : ComparisonOp) (value : Int64) : Expr :=
  .comparison {} op (.memory {} (.ofSize .byte address)) (.integer {} value)

/-- A counted condition, and neither that one byte is below two while another one is not three nor that a third one is four:
a conjunction with a disjunction that stands under two negations. -/
def negatedClauses : Expr :=
  .logical {} .and (some (.modified {} (.repeated 5) (byteCompares 1 .equal 1)))
    (.logical {} .not none (.logical {} .or
      (some (.logical {} .and (some (byteCompares 2 .less 2)) (.logical {} .not none (byteCompares 3 .equal 3))))
      (byteCompares 4 .equal 4)))

/-- All bytes are above what they are compared with, and counted conditions are true. -/
theorem splitting_keeps_truth_negatedClauses :
    let ν : Expr → Bool := orderedBy (fun _ _ => .gt) fun _ => true
    negatedClauses.isWellJoined = true ∧ negatedClauses.holdsUnder ν = true ∧
      negatedClauses.coreClauses = [.modified {} (.repeated 5) (byteCompares 1 .equal 1), byteCompares 4 .notEqual 4] ∧
      negatedClauses.branches = [[byteCompares 2 .greaterEqual 2], [byteCompares 3 .equal 3]] ∧
      (∀ clause ∈ negatedClauses.coreClauses, clause.holdsUnder ν = true) ∧
      ((∀ clause ∈ negatedClauses.parts .and false, clause.joinsWith .or = false) ∨
        ∃ branch ∈ negatedClauses.branches, ∀ part ∈ branch, part.holdsUnder ν = true) := by
  intro ν
  exact ⟨rfl, rfl, rfl, rfl, (splitting_keeps_truth (respectsNegation_orderedBy _ _) rfl).2.2.2.mp rfl⟩

end Expr

end TriggerScript
