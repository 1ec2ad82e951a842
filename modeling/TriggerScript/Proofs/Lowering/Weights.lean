import TriggerScript.Proofs.Expr.Nodes
import TriggerScript.Proofs.Lowering.Splitting

/-!
# Weights and operands of conditions

Lowering goes from a condition into others that need not be parts of it: a negation is lowered as what inverting makes of its
operand, and that may be a larger tree. Inverting keeps the weight of a condition, and which of its connectives have a left
operand; so both carry over to all that a condition is split into.
-/

namespace TriggerScript

namespace Expr

/-! ## Weights -/

/-- Inverting a condition keeps its weight. -/
theorem weight_invert (e : Expr) : e.invert.weight = e.weight := by
  fun_induction invert e with
  | case2 mark left right ihl ihr | case3 mark left right ihl ihr => simp [weight, ihl, ihr]
  | case4 mark left right => simp [weight]
  | case8 e => simp [negate, weight]
  | _ => simp [weight]

/-- A condition in a list weighs no more than the list. -/
theorem weight_le_listWeight {e : Expr} {es : List Expr} (h : e ∈ es) : e.weight ≤ listWeight es := by
  induction es with
  | nil => cases h
  | cons e' es ih =>
    rw [listWeight]
    rcases List.mem_cons.mp h with rfl | h
    · omega
    · have hle := ih h
      omega

/-- The last operand of a connective weighs no more than the whole. -/
theorem weight_right_le (mark : Mark) (op : LogicalOp) (left : Option Expr) (right : Expr) :
    right.weight ≤ (logical mark op left right).weight := by
  cases op <;> cases left <;> simp only [weight] <;> omega

/-- Both operands of a connective are lighter than it. -/
theorem weight_operands_lt (mark : Mark) {op : LogicalOp} (hop : op ≠ .not) (left right : Expr) :
    left.weight < (logical mark op (some left) right).weight ∧
      right.weight < (logical mark op (some left) right).weight := by
  cases op with
  | not => exact absurd rfl hop
  | and | or =>
    simp only [weight]
    omega

/-- A condition weighs less than with a modifier. -/
theorem weight_modified_lt (mark : Mark) (modifier : Modifier) (condition : Expr) :
    condition.weight < (modified mark modifier condition).weight := by
  rw [weight]
  exact Nat.lt_succ_self _

/-- What carries over to operands and to inverted conditions holds of all parts of a condition. -/
theorem forall_mem_parts {p : Expr → Prop} (hinvert : ∀ e, p e → p e.invert)
    (hleft : ∀ mark op left right, op ≠ .not → p (.logical mark op (some left) right) → p left)
    (hright : ∀ mark op left right, p (.logical mark op left right) → p right) {op : LogicalOp} {negated : Bool} {e : Expr}
    (h : p e) : ∀ part ∈ e.parts op negated, p part := by
  fun_induction parts op negated e with
  | case1 mark left right _ ih | case6 mark left right ih => exact ih (hright _ _ _ _ h)
  | case2 mark left right _ => exact List.forall_mem_singleton.mpr (hinvert _ (hright _ _ _ _ h))
  | case3 mark left right hop ihl ihr | case7 mark op left right hop _ ihl ihr =>
    exact List.forall_mem_append.mpr ⟨ihl (hleft _ _ _ _ (fun heq => hop heq) h), ihr (hright _ _ _ _ h)⟩
  | case4 | case5 => exact List.forall_mem_singleton.mpr h
  | case8 | case9 => exact List.forall_mem_singleton.mpr (hinvert _ h)

/-- A part of a condition weighs no more than the whole. -/
theorem weight_le_of_mem_parts {op : LogicalOp} {negated : Bool} {e : Expr} :
    ∀ part ∈ e.parts op negated, part.weight ≤ e.weight := by
  refine forall_mem_parts (p := fun part => part.weight ≤ e.weight) ?_ ?_ ?_ (Nat.le_refl _)
  · intro part hle
    rwa [weight_invert]
  · intro mark op left right hop hle
    exact Nat.le_of_lt (Nat.lt_of_lt_of_le (weight_operands_lt mark hop left right).1 hle)
  · intro mark op left right hle
    exact Nat.le_trans (weight_right_le mark op left right) hle

/-- The parts of a connective are lighter than it. -/
theorem weight_lt_of_mem_parts {mark : Mark} {op : LogicalOp} (hop : op ≠ .not) {left right : Expr} :
    ∀ part ∈ (logical mark op (some left) right).parts op false,
      part.weight < (logical mark op (some left) right).weight := by
  obtain ⟨hleft, hright⟩ := weight_operands_lt mark hop left right
  have hparts : (logical mark op (some left) right).parts op false = left.parts op false ++ right.parts op false := by
    rw [parts, if_pos rfl]
    exact fun heq => hop heq
  rw [hparts]
  refine List.forall_mem_append.mpr ⟨fun part hpart => ?_, fun part hpart => ?_⟩
  · exact Nat.lt_of_le_of_lt (weight_le_of_mem_parts part hpart) hleft
  · exact Nat.lt_of_le_of_lt (weight_le_of_mem_parts part hpart) hright

/-- Conditions that are joined are no negation. -/
theorem isNegation_of_joinsWith {c : Connective} {e : Expr} (h : e.joinsWith c.op = true) : e.isNegation = false := by
  cases e with
  | logical mark op left right =>
    cases op with
    | not => cases left <;> cases c <;> cases h
    | and | or => rfl
  | _ => rfl

/-- The number of levels that lowering a condition nests: two for all that adds to its weight, and one for a negation. -/
def levels (e : Expr) : Nat :=
  2 * e.weight + if e.isNegation then 1 else 0

/-- A condition needs no more levels than twice its weight and one. -/
theorem levels_le (e : Expr) : e.levels ≤ 2 * e.weight + 1 := by
  unfold levels
  split <;> omega

/-- A lighter condition nests less. -/
theorem levels_lt_of_weight_lt {part e : Expr} (h : part.weight < e.weight) : part.levels < e.levels := by
  have hpart := part.levels_le
  unfold levels at hpart ⊢
  omega

/-- The inverted operand of a negation nests less than the negation, unless it is a negation again. -/
theorem levels_invert_lt (mark : Mark) (left : Option Expr) {right : Expr} (h : right.invert.isNegation = false) :
    right.invert.levels < (logical mark .not left right).levels := by
  rw [levels, levels, h, weight_invert]
  simp [weight, isNegation]

/-! ## Operands -/

/-- Whether a node, if it is a connective, may have a left operand or lack it. -/
def connects (allowed : LogicalOp → Bool → Bool) : Expr → Bool
  | .logical _ op left _ => allowed op left.isSome
  | _ => true

section Connects

variable {allowed : LogicalOp → Bool → Bool} (hnot : allowed .not false = true)
  (hdual : allowed .and true = allowed .or true)
include hnot hdual

/-- Inverting a condition keeps which connectives have a left operand. -/
theorem Everywhere.invert_connects {e : Expr} (h : e.Everywhere (connects allowed · = true)) :
    e.invert.Everywhere (connects allowed · = true) := by
  fun_induction invert e with
  | case1 mark op left right => exact everywhere_iff.mpr ⟨rfl, (everywhere_iff.mp h).2⟩
  | case2 mark left right ihl ihr =>
    refine everywhere_iff.mpr ⟨hdual.symm.trans h.root, ?_⟩
    simp [children, ihl (h.part (by simp [children])), ihr (h.part (by simp [children]))]
  | case3 mark left right ihl ihr =>
    refine everywhere_iff.mpr ⟨hdual.trans h.root, ?_⟩
    simp [children, ihl (h.part (by simp [children])), ihr (h.part (by simp [children]))]
  | case4 mark left right => exact h.part (by simp [children])
  | case5 | case6 | case7 => exact everywhere_of_children_nil rfl rfl
  | case8 e => exact everywhere_iff.mpr ⟨hnot, List.forall_mem_singleton.mpr h⟩

/-- Connectives that are allowed throughout a condition are allowed throughout its parts. -/
theorem Everywhere.parts_connects {e : Expr} (h : e.Everywhere (connects allowed · = true)) (op : LogicalOp)
    (negated : Bool) : ∀ part ∈ e.parts op negated, part.Everywhere (connects allowed · = true) :=
  forall_mem_parts (fun _ h => h.invert_connects hnot hdual) (fun _ _ _ _ _ h => h.part (by simp [children]))
    (fun _ _ _ _ h => h.part (by simp [children])) h

end Connects

/-- Whether a node is no connective of two operands that lacks the left one. -/
abbrev hasLeftOperand : Expr → Bool :=
  connects fun op hasLeft => op = .not || hasLeft

/-- Negations take the left operand of no connective away, so lowering keeps to conditions that have all of them. -/
theorem hasLeftOperand_of_mem_parts {e : Expr} (h : e.Everywhere (hasLeftOperand · = true)) {op : LogicalOp}
    {negated : Bool} : ∀ part ∈ e.parts op negated, part.Everywhere (hasLeftOperand · = true) :=
  h.parts_connects rfl rfl op negated

end Expr

namespace Lowering

/-! ## Conditions that are taken out of others -/

/-- A reset is a condition that must never hold. -/
theorem eq_of_reset? {part condition : Expr} (h : reset? part = some condition) :
    ∃ mark, part = .modified mark .never condition := by
  unfold reset? at h
  split at h
  · exact ⟨_, congrArg _ (Option.some.inj h)⟩
  · cases h

/-- A deduction is a condition that is deducted. -/
theorem eq_of_deduction? {entry condition : Expr} (h : deduction? entry = some condition) :
    ∃ mark, entry = .modified mark .deduct condition := by
  unfold deduction? at h
  split at h
  · exact ⟨_, congrArg _ (Option.some.inj h)⟩
  · cases h

end Lowering

end TriggerScript
