import TriggerScript.Proofs.Eval.Fixpoints
import TriggerScript.Proofs.Eval.Folding

/-!
# Comparisons that are folded

A comparison of evaluated operands becomes a constant unless a number among them reads memory. Conditions and lists are
compared as trees. Trees that are the same denote the same in every state of the memory, but different trees may do so as
well: the constant is right in every state exactly if the operands are the same tree or never denote the same.
-/

namespace TriggerScript

/-! ## What operands denote -/

/-- What evaluated expressions denote: numbers, texts, truth values, and lists of these, entry by entry. -/
inductive Denotation where
  | number (value : Int)
  | text (value : String)
  | truth (value : Bool)
  | nil
  | cons (first others : Denotation)
  deriving DecidableEq, Repr

/-- The truth of a comparison: numbers and texts are ordered, and other things are only equal or not. -/
def ComparisonOp.compares? (op : ComparisonOp) : Denotation → Denotation → Option Bool
  | .number a, .number b => some (op.relates a b)
  | .text a, .text b => some (op.relates a b)
  | a, b => if op.isEquality then some (decide (a = b) == decide (op = .equal)) else none

namespace Expr

mutual

/-- What an evaluated expression denotes in a state; a condition denotes its truth. -/
def denotes? (m : MemoryState) : Expr → Option Denotation
  | .text _ value => some (.text value)
  | .array _ entries => denoteAll? m entries
  | e => ((e.numberIn? m).map .number).or ((e.truthIn? m).map .truth)

/-- The list of what expressions denote. -/
def denoteAll? (m : MemoryState) : List Expr → Option Denotation
  | [] => some .nil
  | e :: es => do return .cons (← e.denotes? m) (← denoteAll? m es)

end

/-- Whether the root is an integer, a text, a truth value or a list. -/
def isLiteralNode : Expr → Bool
  | .array .. => true
  | e => e.isConstant

/-- An integer, a text, a truth value, or a list of literals. -/
abbrev IsLiteral (e : Expr) : Prop :=
  e.Everywhere fun node => node.isLiteralNode = true

end Expr

/-- A comparison of two evaluated operands has this truth in every state in which both denote something. -/
def ComparisonOp.HoldsAs (op : ComparisonOp) (left right : Expr) (truth : Bool) : Prop :=
  ∀ m a b, left.denotes? m = some a → right.denotes? m = some b → op.compares? a b = some truth

/-! ## Equality -/

/-- A comparison that asks only for equality relates things by whether they are equal. -/
theorem ComparisonOp.relates_of_isEquality {α : Type} [DecidableEq α] [LT α] [LE α] [DecidableLT α] [DecidableLE α]
    {op : ComparisonOp} (hop : op.isEquality = true) (a b : α) :
    op.relates a b = (decide (a = b) == decide (op = .equal)) := by
  cases op with
  | equal | notEqual => simp [relates]
  | _ => cases hop

/-- Where only equality is asked for, all things are compared in the same way. -/
theorem ComparisonOp.compares?_of_isEquality {op : ComparisonOp} (hop : op.isEquality = true) (a b : Denotation) :
    op.compares? a b = some (decide (a = b) == decide (op = .equal)) := by
  unfold compares?
  split
  · rw [relates_of_isEquality hop]
    simp
  · rw [relates_of_isEquality hop]
    simp
  · rw [if_pos hop]

namespace Expr

/-- The number that a tree means does not depend on marks. -/
theorem numberIn?_bare (m : MemoryState) (e : Expr) : e.bare.numberIn? m = e.numberIn? m := by
  induction e using children_induction with
  | h e ih =>
    cases e with
    | arithmetic mark op left right =>
      rw [bare, numberIn?, numberIn?, ih left (by simp [children]), ih right (by simp [children])]
    | _ => rfl

/-- The truth of a tree does not depend on marks. -/
theorem truthIn?_bare (m : MemoryState) (e : Expr) : e.bare.truthIn? m = e.truthIn? m := by
  induction e using children_induction with
  | h e ih =>
    cases e with
    | comparison mark op left right => rw [bare, truthIn?, truthIn?, numberIn?_bare, numberIn?_bare]
    | logical mark op left? right =>
      have hright := ih right (by simp [children])
      cases left? with
      | none => cases op <;> simp [bare, bareOption, truthIn?, hright]
      | some left =>
        have hleft := ih left (by simp [children])
        cases op <;> simp [bare, bareOption, truthIn?, hleft, hright]
    | _ => rfl

/-- What a list denotes does not depend on marks. -/
theorem denoteAll?_bareList {m : MemoryState} {es : List Expr} (h : ∀ e ∈ es, e.bare.denotes? m = e.denotes? m) :
    denoteAll? m (bareList es) = denoteAll? m es := by
  induction es with
  | nil => rfl
  | cons e es ih =>
    rw [List.forall_mem_cons] at h
    rw [bareList, denoteAll?, denoteAll?, h.1, ih h.2]

/-- Marks denote nothing. -/
theorem denotes?_bare (m : MemoryState) (e : Expr) : e.bare.denotes? m = e.denotes? m := by
  induction e using children_induction with
  | h e ih =>
    have hnumber := numberIn?_bare m e
    have htruth := truthIn?_bare m e
    cases e with
    | text => rfl
    | array mark entries =>
      rw [bare, denotes?, denotes?]
      exact denoteAll?_bareList ih
    | _ =>
      simp only [bare] at hnumber htruth
      simp only [bare, denotes?, hnumber, htruth]

/-- Trees that are the same denote the same. -/
theorem denotes?_of_same {e e' : Expr} (h : e.same e' = true) (m : MemoryState) : e.denotes? m = e'.denotes? m := by
  rw [← denotes?_bare, same_iff.mp h, denotes?_bare]

/-! ## Literals -/

/-- The literal, without marks, that denotes a thing. -/
def literalFor : Denotation → Expr
  | .number value => .integer {} (Int64.ofInt value)
  | .text value => .text {} value
  | .truth value => .boolean {} value
  | .nil => .array {} []
  | .cons first others => .array {} (literalFor first :: (literalFor others).children)

/-- An array is the literal for what it denotes if its entries are. -/
theorem array_eq_literalFor {m : MemoryState} {es : List Expr} {d : Denotation}
    (hes : ∀ e ∈ es, ∀ d, e.denotes? m = some d → e.bare = literalFor d) (h : denoteAll? m es = some d) :
    .array {} (bareList es) = literalFor d := by
  induction es generalizing d with
  | nil =>
    obtain rfl := Option.some.inj h
    rfl
  | cons e es ih =>
    rw [List.forall_mem_cons] at hes
    rw [denoteAll?] at h
    obtain ⟨first, hfirst, h⟩ := Option.bind_eq_some_iff.mp h
    obtain ⟨others, hothers, h⟩ := Option.bind_eq_some_iff.mp h
    obtain rfl := Option.some.inj h
    have hchildren : (literalFor others).children = bareList es := by rw [← ih hes.2 hothers, children]
    rw [literalFor, bareList, hes.1 first hfirst, hchildren]

/-- What a literal denotes tells which literal it is. -/
theorem bare_eq_literalFor {m : MemoryState} {e : Expr} {d : Denotation} (he : e.IsLiteral) (h : e.denotes? m = some d) :
    e.bare = literalFor d := by
  induction e using children_induction generalizing d with
  | h e ih =>
    have hroot := he.root
    cases e with
    | integer mark value =>
      obtain rfl := Option.some.inj h
      rw [bare, literalFor, Int64.ofInt_toInt]
    | text | boolean =>
      obtain rfl := Option.some.inj h
      rfl
    | array mark entries =>
      rw [denotes?] at h
      rw [bare]
      exact array_eq_literalFor (fun entry hentry d hd => ih entry hentry (he.part hentry) hd) h
    | _ => cases hroot

/-- Literals that denote the same are the same. -/
theorem same_of_denotes {m : MemoryState} {e e' : Expr} {d : Denotation} (he : e.IsLiteral) (he' : e'.IsLiteral)
    (h : e.denotes? m = some d) (h' : e'.denotes? m = some d) : e.same e' = true := by
  rw [same_iff, bare_eq_literalFor he h, bare_eq_literalFor he' h']

end Expr

/-! ## Folding -/

namespace Fold

variable {whole left right : Expr} {op : ComparisonOp} {mark : Mark} {truth : Bool}

/-- A comparison that is folded has no number that reads memory. It compares literals as what they denote, or it asks
whether two trees are the same. -/
theorem comparison_folded (h : comparison whole op left right = .ok (.boolean mark truth)) :
    (left.readsMemory = false ∧ right.readsMemory = false) ∧
      (left.IsLiteral ∧ right.IsLiteral ∧ op.HoldsAs left right truth ∨
        op.isEquality = true ∧ truth = (left.same right == decide (op = .equal))) := by
  rcases comparison_cases h with ⟨_, a, _, b, rfl, rfl, heq⟩ | ⟨_, a, _, b, rfl, rfl, heq⟩ |
    ⟨_, a, _, b, rfl, rfl, hop, heq⟩ | hopen
  · obtain ⟨_, rfl⟩ := Expr.boolean.inj heq
    refine ⟨⟨rfl, rfl⟩, .inl ⟨Expr.everywhere_of_children_nil rfl rfl, Expr.everywhere_of_children_nil rfl rfl, ?_⟩⟩
    intro m d d' hd hd'
    obtain rfl := Option.some.inj hd
    obtain rfl := Option.some.inj hd'
    exact congrArg some (op.holds_compare _ _).symm
  · obtain ⟨_, rfl⟩ := Expr.boolean.inj heq
    refine ⟨⟨rfl, rfl⟩, .inl ⟨Expr.everywhere_of_children_nil rfl rfl, Expr.everywhere_of_children_nil rfl rfl, ?_⟩⟩
    intro m d d' hd hd'
    obtain rfl := Option.some.inj hd
    obtain rfl := Option.some.inj hd'
    exact congrArg some (op.holds_compare _ _).symm
  · obtain ⟨_, rfl⟩ := Expr.boolean.inj heq
    exact ⟨⟨rfl, rfl⟩, .inr ⟨hop, by rw [Expr.same]⟩⟩
  · rcases openComparison_cases hopen with ⟨_, _, _, heq⟩ | ⟨hleft, hright, _, _, hop, heq⟩
    · cases heq
    · obtain ⟨_, rfl⟩ := Expr.boolean.inj heq
      exact ⟨⟨hleft, hright⟩, .inr ⟨hop, rfl⟩⟩

/-- The constant is right in every state exactly if the operands are the same tree or never denote the same. -/
theorem holdsAs_iff (h : comparison whole op left right = .ok (.boolean mark truth)) :
    op.HoldsAs left right truth ↔
      left.same right = true ∨ ∀ m a b, left.denotes? m = some a → right.denotes? m = some b → a ≠ b := by
  rcases (comparison_folded h).2 with ⟨hleft, hright, hholds⟩ | ⟨hop, rfl⟩
  · refine iff_of_true hholds ?_
    by_cases hsame : left.same right = true
    · exact .inl hsame
    · refine .inr fun m a b ha hb heq => hsame ?_
      subst heq
      exact Expr.same_of_denotes hleft hright ha hb
  · have hmeans : op.HoldsAs left right (left.same right == decide (op = .equal)) ↔
        ∀ m a b, left.denotes? m = some a → right.denotes? m = some b → (a = b ↔ left.same right = true) := by
      have hcancel : ∀ p q r : Bool, (p == r) = (q == r) ↔ p = q := by decide
      refine forall₅_congr fun m a b ha hb => ?_
      rw [ComparisonOp.compares?_of_isEquality hop, Option.some.injEq, hcancel, Bool.eq_iff_iff, decide_eq_true_iff]
    rw [hmeans]
    by_cases hsame : left.same right = true
    · refine iff_of_true (fun m a b ha hb => iff_of_true ?_ hsame) (.inl hsame)
      rw [Expr.denotes?_of_same hsame m, hb] at ha
      exact (Option.some.inj ha).symm
    · simp [hsame]

end Fold

namespace Scope

variable {settings : Settings} {scope : Scope} {output output' : Output}

/-- A comparison that evaluates to a constant compares operands of which none is a number that reads memory. The constant is
right in every state of the memory if both operands are literals. In general it is right in every state exactly if the
operands are the same tree or never denote the same. -/
theorem folded_comparison_holds_iff {mark mark' : Mark} {op : ComparisonOp} {left right : Expr} {truth : Bool}
    (h : scope.evaluate settings (.comparison mark op left right) output = (.ok (.boolean mark' truth), output')) :
    ∃ l r between, left.replace (scope.envUnder settings) output = (.ok l, between) ∧
      right.replace (scope.envUnder settings) between = (.ok r, output') ∧
      (l.readsMemory = false ∧ r.readsMemory = false) ∧
      (l.IsLiteral → r.IsLiteral → op.HoldsAs l r truth) ∧
      (op.HoldsAs l r truth ↔
        l.same r = true ∨ ∀ m a b, l.denotes? m = some a → r.denotes? m = some b → a ≠ b) := by
  rw [evaluate, Expr.evaluate, Expr.ifValue_of_isValue rfl, Expr.replace] at h
  obtain ⟨l, between, hl, h⟩ := Run.bind_eq_ok h
  obtain ⟨r, after, hr, h⟩ := Run.bind_eq_ok h
  obtain ⟨hfold, rfl⟩ := Prod.mk.inj h
  have hiff := Fold.holdsAs_iff hfold
  refine ⟨l, r, between, hl, hr, (Fold.comparison_folded hfold).1, fun hliteral hliteral' => hiff.mpr ?_, hiff⟩
  by_cases hsame : l.same r = true
  · exact .inl hsame
  · refine .inr fun m a b ha hb heq => hsame ?_
    subst heq
    exact Expr.same_of_denotes hliteral hliteral' ha hb

/-- Two lists that differ in a nested entry are compared. -/
theorem folded_comparison_holds_iff_lists :
    Scope.global.evaluate {} (.comparison {} .notEqual (.array {} [.text {} "a", .array {} [.integer {} 3]])
        (.array {} [.text {} "a", .array {} [.integer {} 4]])) {} = (.ok (.boolean {} true), {}) ∧
      ComparisonOp.notEqual.HoldsAs (.array {} [.text {} "a", .array {} [.integer {} 3]])
        (.array {} [.text {} "a", .array {} [.integer {} 4]]) true := by
  have hleft (env : Env) : (Expr.array {} [.text {} "a", .array {} [.integer {} 3]]).replace env = pure _ :=
    Expr.replace_of_isNormal (by decide +kernel)
  have hright (env : Env) : (Expr.array {} [.text {} "a", .array {} [.integer {} 4]]).replace env = pure _ :=
    Expr.replace_of_isNormal (by decide +kernel)
  have heval : Scope.global.evaluate {} (.comparison {} .notEqual (.array {} [.text {} "a", .array {} [.integer {} 3]])
      (.array {} [.text {} "a", .array {} [.integer {} 4]])) {} = (.ok (.boolean {} true), {}) := by
    rw [evaluate, Expr.evaluate, Expr.ifValue_of_isValue rfl, Expr.replace, hleft, hright]
    refine congrArg (fun result => (result, ({} : Output))) ?_
    simp [Fold.comparison, Fold.openComparison, Expr.readsMemory, Expr.isConstant, ComparisonOp.isEquality, Expr.same,
      Expr.allSame, Expr.mark]
  obtain ⟨l, r, between, hl, hr, _, hliterals, _⟩ := folded_comparison_holds_iff heval
  rw [hleft] at hl
  rw [hright] at hr
  obtain rfl := Except.ok.inj (Prod.mk.inj hl).1
  obtain rfl := Except.ok.inj (Prod.mk.inj hr).1
  exact ⟨heval, hliterals (by decide +kernel) (by decide +kernel)⟩

/-- The condition that a byte is one. -/
def byteIsOne (address : Int64) : Expr :=
  .comparison {} .equal (.call {} "byte" [.integer {} address]) (.integer {} 1)

/-- Conditions on two bytes are folded to different ones, although both are true if both bytes are one. -/
theorem folded_conditions_depend_on_memory :
    (Scope.global.evaluate {} (.comparison {} .equal (byteIsOne 1) (byteIsOne 2)) {}).1.toOption.bind Expr.truth? =
        some false ∧
      ((byteIsOne 1).replace (Scope.global.envUnder {}) {}).1.toOption.bind (Expr.denotes? fun _ => 1) =
        some (.truth true) ∧
      ((byteIsOne 2).replace (Scope.global.envUnder {}) {}).1.toOption.bind (Expr.denotes? fun _ => 1) =
        some (.truth true) ∧
      ComparisonOp.equal.compares? (.truth true) (.truth true) = some true := by
  refine ⟨?_, ?_, ?_, ?_⟩ <;> decide +kernel

end Scope

end TriggerScript
