import TriggerScript.Proofs.Eval.Nesting
import TriggerScript.Proofs.Number
import TriggerScript.Proofs.Meaning

/-!
# Folding keeps the meaning

Evaluation computes constants and drops operands that decide nothing. Here this is compared with what an expression means as
it is written, in every state of the memory and over exact integers. What a quotient or remainder by zero is may be chosen
freely, and it may be nothing at all: a connective that one operand decides has a truth without the other.
-/

namespace TriggerScript

/-! ## Meaning -/

/-- What a numeric expression stands for: a number, or a read of memory. -/
inductive Quantity where
  | number (value : Int)
  | read (read : MemoryRead)

/-- What numbers are made of: a state of the memory, and what divisions by zero give for their left operands. -/
structure Valuation where
  memory : MemoryState
  byZero : ArithmeticOp → Int → Option Int

namespace Valuation

variable (i : Valuation)

/-- The number of a quantity. -/
def value : Quantity → Int
  | .number value => value
  | .read read => i.memory read

/-- Arithmetic on exact integers. -/
def compute (op : ArithmeticOp) (a b : Int) : Option Int :=
  if (op = .divide ∨ op = .modulus) ∧ b = 0 then i.byZero op a else op.result? a b

end Valuation

/-- A read of the current frame in another mode. -/
def MemoryRead.inMode? (mode : ReadMode) (read : MemoryRead) : Option MemoryRead :=
  if read.mode = .current then some { read with mode } else none

namespace Builtin

/-- Whether a function reads memory. -/
def isRead : Builtin → Bool
  | .read _ | .bit | .prev | .prior | .bcd => true
  | _ => false

/-- The read of memory that a function gives. -/
def readOf? : Builtin → List Quantity → Option MemoryRead
  | .read size, [.number address] => (uint32? address).map (.ofSize size)
  | .bit, [.number index, .number address] => do return .ofSize (← MemorySize.bit? index) (← uint32? address)
  | .prev, [.read place] => place.inMode? .previous
  | .prior, [.read place] => place.inMode? .prior
  | .bcd, [.read place] => place.inMode? .decimal
  | _, _ => none

/-- The truth of the condition that a function without arguments gives. -/
def truth? : Builtin → Option Bool
  | .alwaysTrue => some true
  | .alwaysFalse => some false
  | _ => none

end Builtin

/-- Two truth values joined, of which each may be missing: the one that is absorbing decides alone. -/
def joinTruths (absorbing : Bool) : Option Bool → Option Bool → Option Bool
  | some a, some b => some (if a = absorbing then absorbing else b)
  | some a, none => if a = absorbing then some absorbing else none
  | none, some b => if b = absorbing then some absorbing else none
  | none, none => none

namespace Expr

mutual

/-- What a numeric expression stands for. -/
def quantityAt (i : Valuation) : Expr → Option Quantity
  | .integer _ value => some (.number value.toInt)
  | .memory _ read => some (.read read)
  | .arithmetic _ op left right => do
    return .number (← i.compute op (i.value (← left.quantityAt i)) (i.value (← right.quantityAt i)))
  | .call _ name args => do return .read (← (← Builtin.ofName? name).readOf? (← quantitiesAt i args))
  | _ => none

/-- What all expressions of a list stand for. -/
def quantitiesAt (i : Valuation) : List Expr → Option (List Quantity)
  | [] => some []
  | e :: es => do return (← e.quantityAt i) :: (← quantitiesAt i es)

end

/-- The number that an expression means. -/
def numberAt (i : Valuation) (e : Expr) : Option Int :=
  (e.quantityAt i).map i.value

/-- The truth of a condition. -/
def truthAt (i : Valuation) : Expr → Option Bool
  | .comparison _ op left right => do return op.relates (← left.numberAt i) (← right.numberAt i)
  | .boolean _ value => some value
  | .alwaysTrue _ => some true
  | .alwaysFalse _ => some false
  | .logical _ .not none right => (right.truthAt i).map (!·)
  | .logical _ .and (some left) right => joinTruths false (left.truthAt i) (right.truthAt i)
  | .logical _ .or (some left) right => joinTruths true (left.truthAt i) (right.truthAt i)
  | .call _ name [] => (Builtin.ofName? name).bind Builtin.truth?
  | _ => none

mutual

/-- The tree with the variables of a scope put in. -/
def substitute (scope : Scope) : Expr → Expr
  | .var mark name => (scope.find? name).getD (.var mark name)
  | .indexed mark base index => .indexed mark (base.substitute scope) (index.substitute scope)
  | .array mark entries => .array mark (substituteList scope entries)
  | .dictionary mark entries => .dictionary mark (substituteEntries scope entries)
  | .arithmetic mark op left right => .arithmetic mark op (left.substitute scope) (right.substitute scope)
  | .logical mark op left right => .logical mark op (substituteOption scope left) (right.substitute scope)
  | .comparison mark op left right => .comparison mark op (left.substitute scope) (right.substitute scope)
  | .call mark name args => .call mark name (substituteList scope args)
  | .returned mark value => .returned mark (value.substitute scope)
  | .modified mark modifier condition => .modified mark modifier (condition.substitute scope)
  | .tally mark target entries => .tally mark target (substituteList scope entries)
  | .presence mark name display value => .presence mark name display (value.substitute scope)
  | .integer mark value => .integer mark value
  | .text mark value => .text mark value
  | .boolean mark value => .boolean mark value
  | .functionRef mark name => .functionRef mark name
  | .memory mark read => .memory mark read
  | .alwaysTrue mark => .alwaysTrue mark
  | .alwaysFalse mark => .alwaysFalse mark

/-- Puts variables into an operand that may be missing. -/
def substituteOption (scope : Scope) : Option Expr → Option Expr
  | none => none
  | some e => some (e.substitute scope)

/-- Puts variables into the trees of a list. -/
def substituteList (scope : Scope) : List Expr → List Expr
  | [] => []
  | e :: es => e.substitute scope :: substituteList scope es

/-- Puts variables into the entries of a dictionary. -/
def substituteEntries (scope : Scope) : List (Expr × Expr) → List (Expr × Expr)
  | [] => []
  | (key, value) :: entries => (key.substitute scope, value.substitute scope) :: substituteEntries scope entries

end

end Expr

namespace Scope

/-- Expressions that are numbers in a scope: integers, reads of memory at constant addresses, variables bound to evaluated
numbers, and arithmetic on them. -/
inductive IsNumber (scope : Scope) : Expr → Prop where
  | integer (mark : Mark) (value : Int64) : IsNumber scope (.integer mark value)
  | memory (mark : Mark) (read : MemoryRead) : IsNumber scope (.memory mark read)
  | var (mark : Mark) {name : String} {value : Expr} (hfind : scope.find? name = some value)
      (hreduced : value.isReduced = true) (hnumeric : value.isNumeric = true) : IsNumber scope (.var mark name)
  | arithmetic (mark : Mark) (op : ArithmeticOp) {left right : Expr} (hleft : IsNumber scope left)
      (hright : IsNumber scope right) : IsNumber scope (.arithmetic mark op left right)
  | read (mark : Mark) {name : String} {builtin : Builtin} {args : List Expr} (hfunction : scope.function? name = none)
      (hbuiltin : Builtin.ofName? name = some builtin) (hread : builtin.isRead = true)
      (hargs : ∀ arg ∈ args, IsNumber scope arg) : IsNumber scope (.call mark name args)

/-- Expressions that are unmodified conditions in a scope: truth values, comparisons of numbers, the two fixed conditions,
variables bound to evaluated conditions, and connectives of them. -/
inductive IsCondition (scope : Scope) : Expr → Prop where
  | boolean (mark : Mark) (value : Bool) : IsCondition scope (.boolean mark value)
  | alwaysTrue (mark : Mark) : IsCondition scope (.alwaysTrue mark)
  | alwaysFalse (mark : Mark) : IsCondition scope (.alwaysFalse mark)
  | var (mark : Mark) {name : String} {value : Expr} (hfind : scope.find? name = some value)
      (hreduced : value.isReduced = true) (hunmodified : value.isUnmodified = true) : IsCondition scope (.var mark name)
  | comparison (mark : Mark) (op : ComparisonOp) {left right : Expr} (hleft : IsNumber scope left)
      (hright : IsNumber scope right) : IsCondition scope (.comparison mark op left right)
  | not (mark : Mark) {right : Expr} (hright : IsCondition scope right) : IsCondition scope (.logical mark .not none right)
  | join (mark : Mark) {op : LogicalOp} (hop : op ≠ .not) {left right : Expr} (hleft : IsCondition scope left)
      (hright : IsCondition scope right) : IsCondition scope (.logical mark op (some left) right)
  | constant (mark : Mark) {name : String} {builtin : Builtin} {args : List Expr} (hfunction : scope.function? name = none)
      (hbuiltin : Builtin.ofName? name = some builtin) (htruth : builtin.truth?.isSome = true) :
      IsCondition scope (.call mark name args)

end Scope

/-! ## Folding -/

/-- An absorbing truth on the left decides. -/
theorem joinTruths_left (absorbing : Bool) (b : Option Bool) : joinTruths absorbing (some absorbing) b = some absorbing := by
  cases b <;> simp [joinTruths]

/-- An absorbing truth on the right decides. -/
theorem joinTruths_right (absorbing : Bool) (a : Option Bool) : joinTruths absorbing a (some absorbing) = some absorbing := by
  cases a <;> simp [joinTruths]

/-- The other truth on the left leaves the right operand to decide. -/
theorem joinTruths_not_left (absorbing : Bool) (b : Option Bool) : joinTruths absorbing (some !absorbing) b = b := by
  cases b <;> simp [joinTruths]

/-- The other truth on the right leaves the left operand to decide. -/
theorem joinTruths_not_right (absorbing : Bool) (a : Option Bool) : joinTruths absorbing a (some !absorbing) = a := by
  rcases a with _ | a
  · simp [joinTruths]
  · cases a <;> cases absorbing <;> rfl

/-- Integers that are folded are computed exactly. -/
theorem Fold.result?_of_integers {op : ArithmeticOp} {a b : Int} {value : Int64}
    (hzero : op = .divide ∨ op = .modulus → b ≠ 0) (h : Fold.integers op a b = some value) :
    op.result? a b = some value.toInt := by
  cases op with
  | add | subtract | multiply => exact congrArg some (int64?_eq_some_iff.mp h).symm
  | divide =>
    rw [ArithmeticOp.result?, if_neg (hzero (.inl rfl))]
    exact congrArg some (int64?_eq_some_iff.mp h).symm
  | modulus =>
    rw [ArithmeticOp.result?, if_neg (hzero (.inr rfl))]
    rw [Fold.integers] at h
    split at h
    · exact congrArg some (int64?_eq_some_iff.mp h).symm
    · cases h

namespace Expr

variable {i : Valuation} {e v : Expr}

/-- Every integer in a value is exactly the number that a part of an expression means. -/
def ConstantsFrom (i : Valuation) (e v : Expr) : Prop :=
  ∀ mark value, .integer mark value ∈ v.nodes → ∃ part ∈ e.nodes, part.numberAt i = some value.toInt

/-- The integers of a value mean themselves. -/
theorem constantsFrom_self (v : Expr) : v.ConstantsFrom i v :=
  fun mark value hmem => ⟨.integer mark value, hmem, rfl⟩

/-- An integer comes from an expression that means it. -/
theorem constantsFrom_integer {mark : Mark} {value : Int64} (h : e.numberAt i = some value.toInt) :
    e.ConstantsFrom i (.integer mark value) := by
  intro mark' value' hmem
  obtain ⟨_, rfl⟩ := Expr.integer.inj (List.mem_singleton.mp hmem)
  refine ⟨e, ?_, h⟩
  rw [nodes_eq]
  exact List.mem_cons_self

/-- What comes from a part comes from the whole. -/
theorem ConstantsFrom.of_child {part : Expr} (h : part.ConstantsFrom i v) (hpart : part ∈ e.children) :
    e.ConstantsFrom i v := by
  intro mark value hmem
  obtain ⟨node, hnode, hnumber⟩ := h mark value hmem
  refine ⟨node, ?_, hnumber⟩
  rw [nodes_eq]
  exact List.mem_cons_of_mem _ (List.mem_flatMap.mpr ⟨part, hpart, hnode⟩)

/-- A node that is no integer adds none to those of its parts. -/
theorem constantsFrom_of_children (hroot : ∀ mark value, v ≠ .integer mark value)
    (h : ∀ part ∈ v.children, e.ConstantsFrom i part) : e.ConstantsFrom i v := by
  intro mark value hmem
  rw [nodes_eq, List.mem_cons] at hmem
  rcases hmem with heq | hmem
  · exact absurd heq.symm (hroot mark value)
  · obtain ⟨part, hpart, hnode⟩ := List.mem_flatMap.mp hmem
    exact h part hpart mark value hnode

/-- A node without parts that is no integer. -/
theorem constantsFrom_leaf (hroot : ∀ mark value, v ≠ .integer mark value) (hchildren : v.children = []) :
    e.ConstantsFrom i v :=
  constantsFrom_of_children hroot (hchildren ▸ List.forall_mem_nil _)

/-- A value that stands for what a number stands for. -/
structure FoldsNumber (i : Valuation) (e v : Expr) : Prop where
  numeric : v.isNumeric = true
  quantity : v.quantityAt i = e.quantityAt i
  noTruth : e.truthAt i = none
  constants : e.ConstantsFrom i v

/-- A value that has the truth of a condition. -/
structure FoldsCondition (i : Valuation) (e v : Expr) : Prop where
  truth : v.truthAt i = e.truthAt i
  noNumber : v.quantityAt i = none ∧ e.quantityAt i = none
  constants : e.ConstantsFrom i v

/-- A value that stands for a number means it. -/
theorem FoldsNumber.number (h : FoldsNumber i e v) : v.numberAt i = e.numberAt i := by
  rw [numberAt, numberAt, h.quantity]

/-- A number has no truth. -/
theorem truthAt_of_isNumeric (h : v.isNumeric = true) : v.truthAt i = none := by
  cases v with
  | integer | memory | arithmetic => rfl
  | _ => cases h

/-- A read of memory has no truth. -/
theorem truthAt_read {mark : Mark} {name : String} {builtin : Builtin} (hbuiltin : Builtin.ofName? name = some builtin)
    (hread : builtin.isRead = true) (args : List Expr) : (call mark name args).truthAt i = none := by
  cases args with
  | nil =>
    rw [truthAt, hbuiltin]
    cases builtin with
    | read | bit | prev | prior | bcd => rfl
    | _ => cases hread
  | cons => rfl

/-- A condition is no number. -/
theorem quantityAt_of_isUnmodified (h : v.isUnmodified = true) : v.quantityAt i = none := by
  cases v with
  | integer | memory | arithmetic | call => cases h
  | _ => rfl

section Operators

variable {whole left right left' right' : Expr} {mark : Mark}

/-- Folded arithmetic stands for what its operands stand for. -/
theorem foldsNumber_arithmetic {op : ArithmeticOp} (hleft : FoldsNumber i left left') (hright : FoldsNumber i right right')
    (h : Fold.arithmetic whole op left' right' = .ok v) : FoldsNumber i (.arithmetic mark op left right) v := by
  rcases Fold.arithmetic_cases h with ⟨mark', a, mark'', b, value, rfl, rfl, hzero, hvalue, rfl⟩ | ⟨_, htexts, _⟩ |
    ⟨hreads, hnumeric, hnumeric', rfl⟩
  · have hcompute : i.compute op a.toInt b.toInt = some value.toInt := by
      have hnonzero : op = .divide ∨ op = .modulus → b.toInt ≠ 0 :=
        fun hop hb => hzero hop (Int64.toInt_inj.mp hb)
      rw [Valuation.compute, if_neg fun hdivides => hnonzero hdivides.1 hdivides.2]
      exact Fold.result?_of_integers hnonzero hvalue
    have hquantity : (arithmetic mark op left right).quantityAt i = some (.number value.toInt) := by
      rw [quantityAt, ← hleft.quantity, ← hright.quantity]
      simp [quantityAt, Valuation.value, hcompute]
    refine ⟨rfl, hquantity.symm, rfl, constantsFrom_integer ?_⟩
    rw [numberAt, hquantity]
    rfl
  · rw [Fold.joinsTexts_of_isNumeric op hleft.numeric hright.numeric] at htexts
    cases htexts
  · refine ⟨?_, ?_, rfl, constantsFrom_of_children (fun _ _ heq => by cases heq) ?_⟩
    · exact Bool.or_eq_true_iff.mpr hreads
    · rw [quantityAt, quantityAt, hleft.quantity, hright.quantity]
    · have hparts := And.intro (hleft.constants.of_child (e := arithmetic mark op left right) (by simp [children]))
        (hright.constants.of_child (e := arithmetic mark op left right) (by simp [children]))
      simpa [children] using hparts

/-- A folded comparison has the truth of its operands compared. -/
theorem foldsCondition_comparison {op : ComparisonOp} (hleft : FoldsNumber i left left')
    (hright : FoldsNumber i right right') (h : Fold.comparison whole op left' right' = .ok v) :
    FoldsCondition i (.comparison mark op left right) v := by
  rcases Fold.comparison_cases h with ⟨_, a, _, b, rfl, rfl, rfl⟩ | ⟨_, _, _, _, rfl, _⟩ | ⟨_, _, _, _, rfl, _⟩ | hopen
  · refine ⟨?_, ⟨rfl, rfl⟩, constantsFrom_leaf (fun _ _ heq => by cases heq) rfl⟩
    rw [truthAt, truthAt, ← hleft.number, ← hright.number, ComparisonOp.holds_compare]
    rfl
  · cases hleft.numeric
  · cases hleft.numeric
  · rcases Fold.openComparison_cases hopen with ⟨_, _, _, rfl⟩ | ⟨hreads, _, hconstant, _, _, _⟩
    · refine ⟨?_, ⟨rfl, rfl⟩, constantsFrom_of_children (fun _ _ heq => by cases heq) ?_⟩
      · rw [truthAt, truthAt, hleft.number, hright.number]
      · have hparts := And.intro (hleft.constants.of_child (e := comparison mark op left right) (by simp [children]))
          (hright.constants.of_child (e := comparison mark op left right) (by simp [children]))
        simpa [children] using hparts
    · obtain ⟨_, _, rfl⟩ := eq_integer_of_isNumeric hleft.numeric hreads
      cases hconstant

/-- A constant operand has its truth. -/
theorem FoldsCondition.truth_of_truth? {value : Bool} (h : FoldsCondition i e v) (hconst : v.truth? = some value) :
    e.truthAt i = some value := by
  obtain ⟨_, rfl⟩ := eq_boolean_of_truth? hconst
  exact h.truth.symm

/-- A folded negation has the opposite truth. -/
theorem foldsCondition_not (hright : FoldsCondition i right right') (h : Fold.logical whole .not none right' = .ok v) :
    FoldsCondition i (.logical mark .not none right) v := by
  rcases Fold.logical_cases h with ⟨_, _, rfl⟩ | ⟨_, hop, _⟩
  · rcases Fold.negation_cases whole right' with ⟨value, hconst, hv⟩ | ⟨_, hv⟩
    · rw [hv]
      refine ⟨?_, ⟨rfl, rfl⟩, constantsFrom_leaf (fun _ _ heq => by cases heq) rfl⟩
      rw [truthAt, truthAt, hright.truth_of_truth? hconst]
      rfl
    · rw [hv]
      refine ⟨?_, ⟨rfl, rfl⟩, constantsFrom_of_children (fun _ _ heq => by cases heq) ?_⟩
      · rw [truthAt, truthAt, hright.truth]
      · have hpart := hright.constants.of_child (e := logical mark .not none right) (by simp [children])
        simpa [children] using hpart
  · exact absurd rfl hop

/-- The truth of joined conditions is that of both joined. -/
theorem truthAt_logical {op : LogicalOp} (hop : op ≠ .not) (left right : Expr) :
    (logical mark op (some left) right).truthAt i = joinTruths (op = .or) (left.truthAt i) (right.truthAt i) := by
  cases op with
  | not => exact absurd rfl hop
  | and | or => rfl

/-- Folded conditions that are joined have the truth of both joined. -/
theorem foldsCondition_join {op : LogicalOp} (hop : op ≠ .not) (hleft : FoldsCondition i left left')
    (hright : FoldsCondition i right right') (h : Fold.logical whole op (some left') right' = .ok v) :
    FoldsCondition i (.logical mark op (some left) right) v := by
  have hleftConstants := hleft.constants.of_child (e := logical mark op (some left) right) (by simp [children])
  have hrightConstants := hright.constants.of_child (e := logical mark op (some left) right) (by simp [children])
  rcases Fold.logical_cases h with ⟨hnot, _⟩ | ⟨left'', _, heq, _, _, rfl⟩
  · exact absurd hnot hop
  · obtain rfl := Option.some.inj heq
    rcases Fold.connect_cases (op = .or) (.boolean whole.mark (op = .or)) (.logical whole.mark op (some left') right') left'
      right' with ⟨hconst, hv⟩ | ⟨hconst, hv⟩ | ⟨hconst, hv⟩ | ⟨_, _, hv⟩
    · rw [hv]
      refine ⟨?_, ⟨rfl, rfl⟩, constantsFrom_leaf (fun _ _ heq => by cases heq) rfl⟩
      rw [truthAt_logical hop]
      rcases hconst with hconst | hconst
      · rw [hleft.truth_of_truth? hconst, joinTruths_left]
        rfl
      · rw [hright.truth_of_truth? hconst, joinTruths_right]
        rfl
    · rw [hv]
      refine ⟨?_, ⟨hright.noNumber.1, rfl⟩, hrightConstants⟩
      rw [truthAt_logical hop, hleft.truth_of_truth? hconst, joinTruths_not_left, hright.truth]
    · rw [hv]
      refine ⟨?_, ⟨hleft.noNumber.1, rfl⟩, hleftConstants⟩
      rw [truthAt_logical hop, hright.truth_of_truth? hconst, joinTruths_not_right, hleft.truth]
    · rw [hv]
      refine ⟨?_, ⟨rfl, rfl⟩, constantsFrom_of_children (fun _ _ heq => by cases heq) ?_⟩
      · rw [truthAt_logical hop, truthAt_logical hop, hleft.truth, hright.truth]
      · simpa [children] using And.intro hleftConstants hrightConstants

end Operators

end Expr

/-! ## Evaluation -/

/-- A function that gives a value gave it. -/
theorem Builtin.giving_eq_ok {result : Except Error Expr} {v : Expr} {output output' : Output}
    (h : Builtin.giving result output = (.ok (some v), output')) : result = .ok v := by
  obtain ⟨value, between, hresult, hvalue⟩ := Run.bind_eq_ok h
  obtain rfl := Option.some.inj (Except.ok.inj (Prod.mk.inj hvalue).1)
  exact (Prod.mk.inj hresult).1

section Calls

variable {i : Valuation} {badge : String} {apply : String → Expr → Eval (Option Expr)} {builtin : Builtin}
  {args : Arguments} {output output' : Output} {v : Expr}

/-- A function that reads memory gives the read that it means. -/
theorem Builtin.eq_memory_of_isRead (hread : builtin.isRead = true)
    (h : builtin.apply badge apply args output = (.ok (some v), output')) :
    ∃ mark read, v = .memory mark read ∧ (Expr.quantitiesAt i args.values).bind builtin.readOf? = some read := by
  cases builtin with
  | read size =>
    obtain ⟨mark, value, address, hvalues, haddress, rfl⟩ := args.gives_readMemory size v (giving_eq_ok h)
    refine ⟨_, _, rfl, ?_⟩
    simp [hvalues, Expr.quantitiesAt, Expr.quantityAt, readOf?, haddress]
  | bit =>
    obtain ⟨mark, index, size, mark', value, address, hvalues, hsize, haddress, rfl⟩ :=
      args.gives_readBit v (giving_eq_ok h)
    refine ⟨_, _, rfl, ?_⟩
    simp [hvalues, Expr.quantitiesAt, Expr.quantityAt, readOf?, hsize, haddress]
  | prev | prior | bcd =>
    obtain ⟨mark, read, hvalues, hmode, rfl⟩ := args.gives_withMode _ v (giving_eq_ok h)
    refine ⟨_, _, rfl, ?_⟩
    simp [hvalues, Expr.quantitiesAt, Expr.quantityAt, readOf?, MemoryRead.inMode?, hmode]
  | _ => cases hread

/-- A function that gives a fixed condition gives it without arguments. -/
theorem Builtin.foldsCondition_of_truth? {mark : Mark} {name : String} (hname : ofName? name = some builtin)
    (htruth : builtin.truth?.isSome = true) (h : builtin.apply badge apply args output = (.ok (some v), output')) :
    args.values = [] ∧ Expr.FoldsCondition i (.call mark name []) v := by
  cases builtin with
  | alwaysTrue | alwaysFalse =>
    obtain ⟨rfl, hvalues⟩ := args.gives_constantCondition _ v (giving_eq_ok h)
    refine ⟨hvalues, ?_, ⟨rfl, ?_⟩, Expr.constantsFrom_leaf (fun _ _ heq => by cases heq) rfl⟩
    · rw [Expr.truthAt, Expr.truthAt, hname]
      rfl
    · rw [Expr.quantityAt, hname]
      rfl
  | _ => cases htruth

end Calls

namespace Scope

variable {settings : Settings} {scope : Scope} {i : Valuation} {output output' : Output}

/-- A call of a built-in function that no function of the script hides. -/
theorem envUnder_call_of_ofName? {name : String} {builtin : Builtin} (hfunction : scope.function? name = none)
    (hbuiltin : Builtin.ofName? name = some builtin) (values : List Expr) (span : Span) :
    ∃ apply, (scope.envUnder settings).call name values span =
      builtin.apply settings.defaultBadge apply { function := builtin.name, values, span } := by
  rw [envUnder_call, invoke, invokeWith, callee, calleeWithin_of_ofName? _ hfunction hbuiltin]
  exact ⟨_, rfl⟩

/-- A call in an expression has evaluated arguments and a value. -/
theorem replace_call_of_ofName? {mark : Mark} {name : String} {builtin : Builtin} {args : List Expr} {v : Expr}
    (hfunction : scope.function? name = none) (hbuiltin : Builtin.ofName? name = some builtin)
    (h : (Expr.call mark name args).replace (scope.envUnder settings) output = (.ok v, output')) :
    ∃ values between apply, Expr.evaluateAll (scope.envUnder settings) args output = (.ok values, between) ∧
      builtin.apply settings.defaultBadge apply { function := builtin.name, values, span := mark.span } between =
        (.ok (some v), output') := by
  rw [Expr.replace] at h
  obtain ⟨values, between, hvalues, h⟩ := Run.bind_eq_ok h
  obtain ⟨result, after, hcall, h⟩ := Run.bind_eq_ok h
  obtain ⟨apply, happly⟩ := envUnder_call_of_ofName? hfunction hbuiltin values mark.span
  refine ⟨values, between, apply, hvalues, ?_⟩
  rw [← happly, hcall]
  obtain ⟨hresult, rfl⟩ := Prod.mk.inj h
  cases result with
  | none => cases hresult
  | some value =>
    obtain rfl := Except.ok.inj hresult
    rfl

/-- Evaluated arguments stand for what the arguments stand for. -/
theorem quantitiesAt_of_evaluateAll {env : Env} {es values : List Expr}
    (hes : ∀ e ∈ es, ∀ {v output output'}, e.replace env output = (.ok v, output') →
      Expr.FoldsNumber i (e.substitute scope) v)
    (h : Expr.evaluateAll env es output = (.ok values, output')) :
    Expr.quantitiesAt i values = Expr.quantitiesAt i (Expr.substituteList scope es) := by
  induction es generalizing values output output' with
  | nil =>
    obtain rfl := Except.ok.inj (Prod.mk.inj h).1
    rfl
  | cons e es ih =>
    rw [List.forall_mem_cons] at hes
    rw [Expr.evaluateAll] at h
    obtain ⟨first, between, hfirst, h⟩ := Run.bind_eq_ok h
    obtain ⟨others, after, hothers, h⟩ := Run.bind_eq_ok h
    obtain rfl := Except.ok.inj (Prod.mk.inj h).1
    have hreplace : e.replace env output = (.ok first, between) := by
      unfold Expr.ifValue at hfirst
      split at hfirst
      · exact hfirst
      · cases hfirst
    rw [Expr.quantitiesAt, Expr.substituteList, Expr.quantitiesAt, (hes.1 hreplace).quantity, ih hes.2 hothers]

/-- No values come from no trees only. -/
theorem eq_nil_of_evaluateAll {env : Env} {es : List Expr} (h : Expr.evaluateAll env es output = (.ok [], output')) :
    es = [] := by
  cases es with
  | nil => rfl
  | cons e es =>
    rw [Expr.evaluateAll] at h
    obtain ⟨first, _, _, h⟩ := Run.bind_eq_ok h
    obtain ⟨others, _, _, h⟩ := Run.bind_eq_ok h
    cases (Prod.mk.inj h).1

/-- A variable that is bound to a value is replaced by it. -/
theorem replace_var_of_isReduced {mark : Mark} {name : String} {value v : Expr} (hfind : scope.find? name = some value)
    (hreduced : value.isReduced = true)
    (h : (Expr.var mark name).replace (scope.envUnder settings) output = (.ok v, output')) : v = value := by
  rw [Expr.replace, envUnder, env_resolve, resolveWith, hfind] at h
  dsimp only at h
  rw [if_pos hreduced] at h
  exact (Except.ok.inj (Prod.mk.inj h).1).symm

/-- Numbers keep what they stand for. -/
theorem foldsNumber_of_replace {e v : Expr} (he : scope.IsNumber e)
    (h : e.replace (scope.envUnder settings) output = (.ok v, output')) : Expr.FoldsNumber i (e.substitute scope) v := by
  induction he generalizing v output output' with
  | integer mark value =>
    obtain rfl := Except.ok.inj (Prod.mk.inj h).1
    exact ⟨rfl, rfl, rfl, Expr.constantsFrom_self _⟩
  | memory mark read =>
    obtain rfl := Except.ok.inj (Prod.mk.inj h).1
    exact ⟨rfl, rfl, rfl, Expr.constantsFrom_self _⟩
  | var mark hfind hreduced hnumeric =>
    obtain rfl := replace_var_of_isReduced hfind hreduced h
    rw [Expr.substitute, hfind]
    exact ⟨hnumeric, rfl, Expr.truthAt_of_isNumeric hnumeric, Expr.constantsFrom_self _⟩
  | arithmetic mark op hleft hright ihleft ihright =>
    rw [Expr.replace] at h
    obtain ⟨left', _, hleft', h⟩ := Run.bind_eq_ok h
    obtain ⟨right', _, hright', h⟩ := Run.bind_eq_ok h
    rw [Expr.substitute]
    exact Expr.foldsNumber_arithmetic (ihleft hleft') (ihright hright') (Prod.mk.inj h).1
  | read mark hfunction hbuiltin hread hargs ih =>
    obtain ⟨values, between, apply, hvalues, happly⟩ := replace_call_of_ofName? hfunction hbuiltin h
    obtain ⟨mark', place, rfl, hplace⟩ := Builtin.eq_memory_of_isRead hread happly
    refine ⟨rfl, ?_, ?_, Expr.constantsFrom_leaf (fun _ _ heq => by cases heq) rfl⟩
    · rw [quantitiesAt_of_evaluateAll (fun arg hmem => ih arg hmem) hvalues] at hplace
      obtain ⟨quantities, hquantities, hplace⟩ := Option.bind_eq_some_iff.mp hplace
      simp [Expr.substitute, Expr.quantityAt, hbuiltin, hquantities, hplace]
    · rw [Expr.substitute]
      exact Expr.truthAt_read hbuiltin hread _

/-- Conditions keep their truth. -/
theorem foldsCondition_of_replace {e v : Expr} (he : scope.IsCondition e)
    (h : e.replace (scope.envUnder settings) output = (.ok v, output')) :
    Expr.FoldsCondition i (e.substitute scope) v := by
  induction he generalizing v output output' with
  | boolean | alwaysTrue | alwaysFalse =>
    obtain rfl := Except.ok.inj (Prod.mk.inj h).1
    exact ⟨rfl, ⟨rfl, rfl⟩, Expr.constantsFrom_self _⟩
  | var mark hfind hreduced hunmodified =>
    obtain rfl := replace_var_of_isReduced hfind hreduced h
    have hnumber : v.quantityAt i = none := Expr.quantityAt_of_isUnmodified hunmodified
    rw [Expr.substitute, hfind]
    exact ⟨rfl, ⟨hnumber, hnumber⟩, Expr.constantsFrom_self _⟩
  | comparison mark op hleft hright =>
    rw [Expr.replace] at h
    obtain ⟨left', _, hleft', h⟩ := Run.bind_eq_ok h
    obtain ⟨right', _, hright', h⟩ := Run.bind_eq_ok h
    rw [Expr.substitute]
    exact Expr.foldsCondition_comparison (foldsNumber_of_replace hleft hleft') (foldsNumber_of_replace hright hright')
      (Prod.mk.inj h).1
  | not mark hright ih =>
    rw [Expr.replace] at h
    obtain ⟨left', _, hleft', h⟩ := Run.bind_eq_ok h
    obtain ⟨right', _, hright', h⟩ := Run.bind_eq_ok h
    obtain rfl := Except.ok.inj (Prod.mk.inj hleft').1
    rw [Expr.substitute, Expr.substituteOption]
    exact Expr.foldsCondition_not (ih hright') (Prod.mk.inj h).1
  | join mark hop hleft hright ihleft ihright =>
    rw [Expr.replace] at h
    obtain ⟨left', _, hleft', h⟩ := Run.bind_eq_ok h
    obtain ⟨right', _, hright', h⟩ := Run.bind_eq_ok h
    obtain ⟨left'', _, hleft'', hsome⟩ := Run.bind_eq_ok hleft'
    obtain rfl := Except.ok.inj (Prod.mk.inj hsome).1
    rw [Expr.substitute, Expr.substituteOption]
    exact Expr.foldsCondition_join hop (ihleft hleft'') (ihright hright') (Prod.mk.inj h).1
  | constant mark hfunction hbuiltin htruth =>
    obtain ⟨values, between, apply, hvalues, happly⟩ := replace_call_of_ofName? hfunction hbuiltin h
    obtain ⟨rfl, hfolds⟩ := Builtin.foldsCondition_of_truth? hbuiltin htruth happly
    obtain rfl := eq_nil_of_evaluateAll hvalues
    exact hfolds

/-- Folding keeps the meaning: in every state of the memory a value means the number, or has the truth, of the expression
with the variables of the scope put in, and every integer in it is exactly the number that a part of this expression
means. -/
theorem folding_preserves_meaning {e v : Expr} (he : scope.IsNumber e ∨ scope.IsCondition e)
    (h : scope.evaluate settings e output = (.ok v, output')) (i : Valuation) :
    v.numberAt i = (e.substitute scope).numberAt i ∧ v.truthAt i = (e.substitute scope).truthAt i ∧
      ∀ mark value, .integer mark value ∈ v.nodes →
        ∃ part ∈ (e.substitute scope).nodes, part.numberAt i = some value.toInt := by
  have hreplace : e.replace (scope.envUnder settings) output = (.ok v, output') := by
    unfold evaluate Expr.evaluate Expr.ifValue at h
    split at h
    · exact h
    · cases h
  rcases he with he | he
  · have hfolds : Expr.FoldsNumber i (e.substitute scope) v := foldsNumber_of_replace he hreplace
    exact ⟨hfolds.number, (Expr.truthAt_of_isNumeric hfolds.numeric).trans hfolds.noTruth.symm, hfolds.constants⟩
  · have hfolds : Expr.FoldsCondition i (e.substitute scope) v := foldsCondition_of_replace he hreplace
    refine ⟨?_, hfolds.truth, hfolds.constants⟩
    rw [Expr.numberAt, Expr.numberAt, hfolds.noNumber.1, hfolds.noNumber.2]

/-- A scope with an evaluated number and an evaluated condition. -/
def withMeasurements : Scope :=
  (Scope.global.assign "x" (.memory {} (.ofSize .byte 16))).assign "done"
    (.comparison {} .equal (.memory {} (.ofSize .byte 32)) (.integer {} 1))

/-- A condition with constants to compute, an operand to drop and a division by what may be zero. -/
def mixedCondition : Expr :=
  .logical {} .or
    (some (.logical {} .and
      (some (.comparison {} .greater
        (.arithmetic {} .add (.var {} "x") (.arithmetic {} .modulus (.integer {} (-7)) (.integer {} 4)))
        (.call {} "prev" [.call {} "byte" [.arithmetic {} .add (.integer {} 4) (.integer {} 12)]])))
      (.logical {} .not none (.var {} "done"))))
    (.logical {} .and
      (some (.comparison {} .equal
        (.arithmetic {} .divide (.call {} "byte" [.integer {} 1]) (.call {} "byte" [.integer {} 2])) (.integer {} 3)))
      (.boolean {} false))

/-- The condition of the sample is one of those that folding is proved for. -/
theorem isCondition_mixedCondition : withMeasurements.IsCondition mixedCondition := by
  have hbyte : ∀ address, withMeasurements.IsNumber address → withMeasurements.IsNumber (.call {} "byte" [address]) := by
    intro address haddress
    exact .read {} (by decide +kernel) (by decide +kernel : Builtin.ofName? "byte" = some (.read .byte)) rfl
      (List.forall_mem_singleton.mpr haddress)
  have hprev : ∀ place, withMeasurements.IsNumber place → withMeasurements.IsNumber (.call {} "prev" [place]) := by
    intro place hplace
    exact .read {} (by decide +kernel) (by decide +kernel : Builtin.ofName? "prev" = some .prev) rfl
      (List.forall_mem_singleton.mpr hplace)
  refine .join {} (by decide) (.join {} (by decide) (.comparison {} _ ?_ ?_) (.not {} ?_))
    (.join {} (by decide) (.comparison {} _ ?_ (.integer {} 3)) (.boolean {} false))
  · exact .arithmetic {} _ (.var {} rfl rfl rfl) (.arithmetic {} _ (.integer {} _) (.integer {} _))
  · exact hprev _ (hbyte _ (.arithmetic {} _ (.integer {} _) (.integer {} _)))
  · exact .var {} rfl rfl rfl
  · exact .arithmetic {} _ (hbyte _ (.integer {} _)) (hbyte _ (.integer {} _))

/-- The condition folds to two comparisons that have its meaning, and the absorbed division is gone. -/
theorem folding_preserves_meaning_mixedCondition :
    ∃ v output, withMeasurements.evaluate {} mixedCondition {} = (.ok v, output) ∧
      v.render = "byte(0x000010) + -3 > prev(byte(0x000010)) && !byte(0x000020) == 1" ∧
      ∀ i, v.numberAt i = (mixedCondition.substitute withMeasurements).numberAt i ∧
        v.truthAt i = (mixedCondition.substitute withMeasurements).truthAt i ∧
        ∀ mark value, .integer mark value ∈ v.nodes →
          ∃ part ∈ (mixedCondition.substitute withMeasurements).nodes, part.numberAt i = some value.toInt := by
  have hvalue : (withMeasurements.evaluate {} mixedCondition {}).1.toOption.map Expr.render =
      some "byte(0x000010) + -3 > prev(byte(0x000010)) && !byte(0x000020) == 1" := by decide +kernel
  cases heval : withMeasurements.evaluate {} mixedCondition {} with
  | mk result output =>
    rw [heval] at hvalue
    cases result with
    | error error => cases hvalue
    | ok v =>
      exact ⟨v, output, rfl, Option.some.inj hvalue, folding_preserves_meaning (.inr isCondition_mixedCondition) heval⟩

end Scope

end TriggerScript
