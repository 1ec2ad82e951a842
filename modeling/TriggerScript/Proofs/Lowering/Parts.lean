import TriggerScript.Proofs.Formula

/-!
# The parts of a condition

Every condition has a formula, with its negations pushed into the leaves. The parts that a connective joins in a condition
(`Expr.parts`) are stretches of that formula, so what is true of single parts and survives a join is true of the whole
(`Expr.parts_induction`).
-/

namespace TriggerScript

namespace ComparisonOp

@[simp] theorem invert_invert (op : ComparisonOp) : op.invert.invert = op := by
  cases op <;> rfl

/-- The inverse of a comparison has the opposite outcome. -/
theorem holds_invert (op : ComparisonOp) (order : Ordering) : op.invert.holds order = !op.holds order := by
  cases op <;> cases order <;> rfl

/-- The inverse of a comparison relates exactly the numbers that the comparison does not. -/
theorem relates_invert (op : ComparisonOp) (a b : Int) : op.invert.relates a b = !op.relates a b := by
  rw [← holds_compare, ← holds_compare, holds_invert]

end ComparisonOp

namespace Expr

/-- The formula of a condition, or of its negation. -/
def formula : (negated : Bool) → Expr → Formula Expr
  | negated, .logical _ .not _ right => right.formula (!negated)
  | negated, .logical _ .and (some left) right =>
    .join (Connective.all.under negated) (left.formula negated) (right.formula negated)
  | negated, .logical _ .or (some left) right =>
    .join (Connective.any.under negated) (left.formula negated) (right.formula negated)
  | negated, e => .leaf (if negated then e.invert else e)

/-- Pushing a negation into a condition turns its formula over. -/
theorem formula_invert (negated : Bool) (e : Expr) : e.invert.formula negated = e.formula (!negated) := by
  fun_induction invert e generalizing negated with
  | case1 mark op left right => cases negated <;> simp [formula, invert]
  | case2 mark left right ihl ihr => cases negated <;> simp [formula, ihl, ihr, Connective.under]
  | case3 mark left right ihl ihr => cases negated <;> simp [formula, ihl, ihr, Connective.under]
  | case4 mark left right => simp [formula]
  | case5 mark value => cases negated <;> simp [formula, invert]
  | case6 mark => cases negated <;> simp [formula, invert]
  | case7 mark => cases negated <;> simp [formula, invert]
  | case8 e => rw [negate, formula]

/-- The formula of joined conditions joins theirs. -/
theorem formula_op (mark : Mark) (c : Connective) (left right : Expr) :
    (logical mark c.op (some left) right).formula false = .join c (left.formula false) (right.formula false) := by
  cases c <;> rfl

/-- Under a negation, the formula of joined conditions joins theirs by the other connective. -/
theorem formula_dual (mark : Mark) {op : LogicalOp} {c : Connective} (h : op.dual = c.op) (left right : Expr) :
    (logical mark op (some left) right).formula true = .join c (left.formula true) (right.formula true) := by
  cases op <;> cases c <;> first | rfl | cases h

/-- What holds of every single part, and of two formulas joined by a connective if it holds of both, holds of the parts
of a condition. -/
theorem parts_induction {P : Formula Expr → List Expr → Prop} (c : Connective)
    (single : ∀ e : Expr, P (e.formula false) [e])
    (append : ∀ f g xs ys, P f xs → P g ys → P (.join c f g) (xs ++ ys)) (negated : Bool) (e : Expr) :
    P (e.formula negated) (e.parts c.op negated) := by
  have inverted : ∀ e : Expr, P (e.formula true) [e.invert] := by
    intro e
    have h := single e.invert
    rwa [formula_invert] at h
  fun_induction parts c.op negated e with
  | case1 mark left right _ ih => exact ih
  | case2 mark left right _ => exact inverted right
  | case3 mark left right _ ihl ihr =>
    rw [formula_op]
    exact append _ _ _ _ ihl ihr
  | case4 mark op left right _ _ => exact single _
  | case5 e _ _ => exact single e
  | case6 mark left right ih => exact ih
  | case7 mark op left right _ hd ihl ihr =>
    rw [formula_dual mark hd]
    exact append _ _ _ _ ihl ihr
  | case8 mark op left right _ _ => exact inverted _
  | case9 e _ _ => exact inverted e

/-- A condition has parts. -/
theorem parts_ne_nil (c : Connective) (negated : Bool) (e : Expr) : e.parts c.op negated ≠ [] := by
  refine parts_induction (P := fun _ xs => xs ≠ []) c (fun e => List.cons_ne_nil e []) ?_ negated e
  intro _ _ xs ys hxs _
  exact List.append_ne_nil_of_left_ne_nil hxs ys

/-- The leaves of a condition are those of its parts. -/
theorem leaves_formula (c : Connective) (negated : Bool) (e : Expr) :
    (e.formula negated).leaves = (e.parts c.op negated).flatMap fun part => (part.formula false).leaves := by
  refine parts_induction (P := fun f xs => f.leaves = xs.flatMap fun part => (part.formula false).leaves) c ?_ ?_
    negated e
  · intro e
    rw [List.flatMap_singleton]
  · intro f g xs ys hf hg
    rw [Formula.leaves, hf, hg, List.flatMap_append]

/-- Conditions of a list read from left to right, each linked to the next. -/
def chainReading (c : Connective) (ν : Expr → Bool) : Running → List Expr → Bool
  | running, [] => running.join true
  | running, [e] => ((e.formula false).map ν).reading running
  | running, e :: es => chainReading c ν (.linked c (((e.formula false).map ν).reading running)) es

/-- The first condition of a chain is read before the others. -/
theorem chainReading_cons (c : Connective) (ν : Expr → Bool) (running : Running) (e : Expr) {es : List Expr}
    (h : es ≠ []) :
    chainReading c ν running (e :: es) = chainReading c ν (.linked c (((e.formula false).map ν).reading running)) es := by
  obtain ⟨e', es, rfl⟩ := List.exists_cons_of_ne_nil h
  rfl

/-- A chain is read up to any place, and from there on. -/
theorem chainReading_append (c : Connective) (ν : Expr → Bool) (running : Running) {xs ys : List Expr} (hx : xs ≠ [])
    (hy : ys ≠ []) :
    chainReading c ν running (xs ++ ys) = chainReading c ν (.linked c (chainReading c ν running xs)) ys := by
  induction xs generalizing running with
  | nil => exact absurd rfl hx
  | cons e es ih =>
    rw [List.cons_append, chainReading_cons _ _ _ _ (List.append_ne_nil_of_right_ne_nil es hy)]
    by_cases hes : es = []
    · subst hes
      rfl
    · rw [ih _ hes, chainReading_cons _ _ _ _ hes]

/-- Reading the parts of a condition in a chain is reading its formula. -/
theorem reading_formula (c : Connective) (ν : Expr → Bool) (negated : Bool) (e : Expr) (running : Running) :
    ((e.formula negated).map ν).reading running = chainReading c ν running (e.parts c.op negated) := by
  have h := parts_induction (P := fun f xs => xs ≠ [] ∧ ∀ r, (f.map ν).reading r = chainReading c ν r xs) c
    (fun e => ⟨List.cons_ne_nil e [], fun _ => rfl⟩) ?_ negated e
  · exact h.2 running
  · intro f g xs ys ⟨hx, hf⟩ ⟨hy, hg⟩
    refine ⟨List.append_ne_nil_of_left_ne_nil hx ys, fun r => ?_⟩
    rw [Formula.map, Formula.reading, hf, hg, chainReading_append _ _ _ hx hy]

/-- A conjunction is true if all its parts are. -/
theorem truth_formula_all (ν : Expr → Bool) (negated : Bool) (e : Expr) :
    ((e.formula negated).map ν).truth =
      (e.parts .and negated).all fun part => ((part.formula false).map ν).truth := by
  refine parts_induction (P := fun f xs => (f.map ν).truth = xs.all fun part => ((part.formula false).map ν).truth)
    .all ?_ ?_ negated e
  · intro e
    rw [List.all_cons, List.all_nil, Bool.and_true]
  · intro f g xs ys hf hg
    rw [List.all_append, ← hf, ← hg]
    rfl

/-- A disjunction is true if one of its parts is. -/
theorem truth_formula_any (ν : Expr → Bool) (negated : Bool) (e : Expr) :
    ((e.formula negated).map ν).truth =
      (e.parts .or negated).any fun part => ((part.formula false).map ν).truth := by
  refine parts_induction (P := fun f xs => (f.map ν).truth = xs.any fun part => ((part.formula false).map ν).truth)
    .any ?_ ?_ negated e
  · intro e
    rw [List.any_cons, List.any_nil, Bool.or_false]
  · intro f g xs ys hf hg
    rw [List.any_append, ← hf, ← hg]
    rfl

/-! ## Truth in a state -/

/-- Whether a condition is true in a state; false if it has no truth there. -/
def holdsIn (m : MemoryState) (e : Expr) : Bool :=
  (e.truthIn? m).getD false

/-- Whether a condition is a comparison or has a fixed truth. -/
def isBasic : Expr → Bool
  | .comparison .. | .boolean .. | .alwaysTrue .. | .alwaysFalse .. => true
  | _ => false

/-- An inverted leaf has the opposite truth. -/
theorem truthIn_invert (m : MemoryState) {e : Expr} (h : e.isBasic) : e.invert.truthIn? m = (e.truthIn? m).map (!·) := by
  cases e with
  | comparison mark op left right =>
    simp only [invert, truthIn?]
    cases left.numberIn? m <;> cases right.numberIn? m <;> simp [ComparisonOp.relates_invert]
  | boolean mark value => rfl
  | alwaysTrue mark => rfl
  | alwaysFalse mark => rfl
  | _ => cases h

/-- The formula of a leaf is this leaf, inverted under a negation. -/
theorem formula_of_isBasic (negated : Bool) {e : Expr} (h : e.isBasic) :
    e.formula negated = .leaf (if negated then e.invert else e) := by
  cases e with
  | comparison | boolean | alwaysTrue | alwaysFalse => rfl
  | _ => cases h

/-- The leaves of an unmodified condition are basic. -/
theorem isBasic_of_mem_leaves {e : Expr} (h : e.isUnmodified) (negated : Bool) :
    ∀ x ∈ (e.formula negated).leaves, x.isBasic := by
  fun_induction isUnmodified e generalizing negated with
  | case5 mark right ih => exact ih h (!negated)
  | case6 mark left right ihl ihr =>
    rw [Bool.and_eq_true] at h
    intro x hx
    rcases List.mem_append.mp hx with hx | hx
    · exact ihl h.1 negated x hx
    · exact ihr h.2 negated x hx
  | case7 mark left right ihl ihr =>
    rw [Bool.and_eq_true] at h
    intro x hx
    rcases List.mem_append.mp hx with hx | hx
    · exact ihl h.1 negated x hx
    · exact ihr h.2 negated x hx
  | case8 e => cases h
  | _ =>
    intro x hx
    rw [formula_of_isBasic negated rfl] at hx
    rw [List.mem_singleton.mp hx]
    cases negated <;> rfl

/-- A leaf has the truth of its formula. -/
theorem truthIn_formula_of_isBasic (m : MemoryState) {e : Expr} (h : e.isBasic) (negated : Bool)
    (hl : ∀ x ∈ (e.formula negated).leaves, (x.truthIn? m).isSome) :
    e.truthIn? m = some (negated ^^ ((e.formula negated).map (holdsIn m)).truth) := by
  rw [formula_of_isBasic negated h] at hl ⊢
  have hs := hl _ (List.mem_singleton_self _)
  cases negated with
  | false =>
    obtain ⟨b, hb⟩ := Option.isSome_iff_exists.mp hs
    simp_all [Formula.map, Formula.truth, holdsIn]
  | true =>
    rw [if_pos rfl, truthIn_invert m h] at hs
    obtain ⟨b, hb⟩ := Option.isSome_iff_exists.mp hs
    simp_all [Formula.map, Formula.truth, holdsIn, truthIn_invert]

/-- An unmodified condition whose leaves have a truth has the truth of its formula. -/
theorem truthIn_formula (m : MemoryState) {e : Expr} (h : e.isUnmodified) (negated : Bool)
    (hl : ∀ x ∈ (e.formula negated).leaves, (x.truthIn? m).isSome) :
    e.truthIn? m = some (negated ^^ ((e.formula negated).map (holdsIn m)).truth) := by
  fun_induction isUnmodified e generalizing negated with
  | case5 mark right ih =>
    rw [truthIn?, ih h (!negated) hl]
    cases negated <;> simp [formula]
  | case6 mark left right ihl ihr =>
    rw [Bool.and_eq_true] at h
    rw [formula, Formula.leaves] at hl
    rw [truthIn?, ihl h.1 negated fun x hx => hl x (List.mem_append_left _ hx),
      ihr h.2 negated fun x hx => hl x (List.mem_append_right _ hx)]
    cases negated <;> simp [formula, Formula.map, Formula.truth, Connective.under, Connective.combine]
  | case7 mark left right ihl ihr =>
    rw [Bool.and_eq_true] at h
    rw [formula, Formula.leaves] at hl
    rw [truthIn?, ihl h.1 negated fun x hx => hl x (List.mem_append_left _ hx),
      ihr h.2 negated fun x hx => hl x (List.mem_append_right _ hx)]
    cases negated <;> simp [formula, Formula.map, Formula.truth, Connective.under, Connective.combine]
  | case8 e => cases h
  | _ => exact truthIn_formula_of_isBasic m rfl negated hl

end Expr

end TriggerScript
