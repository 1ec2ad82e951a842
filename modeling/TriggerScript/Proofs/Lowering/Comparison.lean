import TriggerScript.Proofs.Number
import TriggerScript.Proofs.Lowering.Parts
import TriggerScript.Proofs.Outcome

/-!
# Lowered sums and comparisons

A sum of memory reads keeps its number when it is split into terms and a constant, and a comparison keeps its truth when
its terms become sources before the last one. Both are exact: nothing is cut off or wrapped.
-/

namespace TriggerScript

/-! ## Sums -/

namespace SumTerm

/-- The number of a memory read with its scaling, before its sign. -/
def scaledIn (m : MemoryState) (term : SumTerm) : Int :=
  match term.scaling with
  | .none => m term.read
  | .multiply factor => m term.read * factor.toNat
  | .divide factor => (m term.read : Int).tdiv factor.toNat

/-- The number that a memory read adds to its sum. -/
def numberIn (m : MemoryState) (term : SumTerm) : Int :=
  if term.negative then -term.scaledIn m else term.scaledIn m

/-- The number of the memory reads of a sum. -/
def totalIn (m : MemoryState) : List SumTerm → Int
  | [] => 0
  | term :: terms => term.numberIn m + totalIn m terms

@[simp] theorem totalIn_append (m : MemoryState) (terms others : List SumTerm) :
    totalIn m (terms ++ others) = totalIn m terms + totalIn m others := by
  induction terms with
  | nil => simp [totalIn]
  | cons term terms ih => rw [List.cons_append, totalIn, totalIn, ih, Int.add_assoc]

end SumTerm

namespace LinearSum

/-- The number of a sum in a state. -/
def numberIn (m : MemoryState) (sum : LinearSum) : Int :=
  SumTerm.totalIn m sum.terms + sum.offset.toInt

/-- A number with the sign it is added with. -/
def signed (negative : Bool) (n : Int) : Int :=
  if negative then -n else n

theorem numberIn_addTerm (m : MemoryState) (sum : LinearSum) (term : SumTerm) :
    (sum.addTerm term).numberIn m = sum.numberIn m + term.numberIn m := by
  simp only [numberIn, addTerm, SumTerm.totalIn_append, SumTerm.totalIn]
  omega

/-- Adding a constant adds its number. -/
theorem numberIn_addConstant (m : MemoryState) {e : Expr} {negative : Bool} {value : Int64} {sum sum' : LinearSum}
    (h : sum.addConstant e negative value = .ok sum') :
    sum'.numberIn m = sum.numberIn m + signed negative value.toInt := by
  rw [addConstant] at h
  split at h
  · rename_i offset hoffset
    obtain ⟨delta, hdelta, hsum⟩ := Option.bind_eq_some_iff.mp hoffset
    have hd : delta.toInt = signed negative value.toInt := by
      cases negative with
      | false => rw [← Option.some.inj hdelta]; rfl
      | true => exact int64?_eq_some_iff.mp hdelta
    rw [← Except.ok.inj h, numberIn, numberIn, int64?_eq_some_iff.mp hsum, hd, Int.add_assoc]
  · cases h

/-- A product or quotient that can be scaled has the number of its memory read, scaled. -/
theorem numberIn_scaledRead (m : MemoryState) {op : ArithmeticOp} {left right : Expr} {read : MemoryRead} {factor : Int64}
    (h : scaledRead? op left right = some (read, factor)) (mark : Mark) :
    (Expr.arithmetic mark op left right).numberIn? m = op.result? (m read) factor.toInt := by
  unfold scaledRead? at h
  split at h
  · obtain ⟨rfl, rfl⟩ := Prod.mk.inj (Option.some.inj h)
    rfl
  · split at h
    · rename_i hop
      subst hop
      obtain ⟨rfl, rfl⟩ := Prod.mk.inj (Option.some.inj h)
      exact congrArg some (Int.mul_comm _ _)
    · cases h
  · cases h

/-- Adding a product or quotient adds its number. -/
theorem numberIn_addScaled (m : MemoryState) {e left right : Expr} {negative : Bool} {op : ArithmeticOp}
    {sum sum' : LinearSum} (hop : op = .multiply ∨ op = .divide) (h : sum.addScaled e negative op left right = .ok sum')
    (mark : Mark) :
    ∃ n, (Expr.arithmetic mark op left right).numberIn? m = some n ∧
      sum'.numberIn m = sum.numberIn m + signed negative n := by
  unfold addScaled at h
  split at h
  · cases h
  · rename_i read factor hread
    split at h
    · cases h
    · rename_i hzero
      split at h
      · cases h
      · rename_i scale hscale
        rw [numberIn_scaledRead m hread, ← Except.ok.inj h, numberIn_addTerm, ← uint32?_eq_some_iff.mp hscale]
        rcases hop with rfl | rfl
        · exact ⟨_, rfl, rfl⟩
        · have hne : (scale.toNat : Int) ≠ 0 := by
            rw [uint32?_eq_some_iff.mp hscale]
            exact fun h0 => hzero ⟨rfl, Int64.toInt_inj.mp h0⟩
          exact ⟨_, if_neg hne, rfl⟩

/-- Adding an evaluated number adds its number. -/
theorem numberIn_addExpr (m : MemoryState) {e : Expr} {negative : Bool} {sum sum' : LinearSum}
    (h : sum.addExpr negative e = .ok sum') :
    ∃ n, e.numberIn? m = some n ∧ sum'.numberIn m = sum.numberIn m + signed negative n := by
  fun_induction addExpr negative sum e generalizing sum' with
  | case1 negative sum mark value => exact ⟨_, rfl, numberIn_addConstant m h⟩
  | case2 negative sum mark read =>
    rw [← Except.ok.inj h, numberIn_addTerm]
    exact ⟨_, rfl, rfl⟩
  | case3 negative sum mark left right ihl ihr =>
    obtain ⟨between, hl, hr⟩ := bind_eq_ok.mp h
    obtain ⟨a, ha, hbetween⟩ := ihl hl
    obtain ⟨b, hb, hsum⟩ := ihr between hr
    refine ⟨a + b, by simp [Expr.numberIn?, ha, hb, ArithmeticOp.result?], ?_⟩
    rw [hsum, hbetween]
    cases negative <;> simp only [signed, Bool.false_eq_true, if_true, if_false] <;> omega
  | case4 negative sum mark left right ihl ihr =>
    obtain ⟨between, hl, hr⟩ := bind_eq_ok.mp h
    obtain ⟨a, ha, hbetween⟩ := ihl hl
    obtain ⟨b, hb, hsum⟩ := ihr between hr
    refine ⟨a - b, by simp [Expr.numberIn?, ha, hb, ArithmeticOp.result?], ?_⟩
    rw [hsum, hbetween]
    cases negative <;> simp only [signed, Bool.not_false, Bool.not_true, Bool.false_eq_true, if_true, if_false] <;> omega
  | case5 negative sum mark left right => exact numberIn_addScaled m (Or.inl rfl) h mark
  | case6 negative sum mark left right => exact numberIn_addScaled m (Or.inr rfl) h mark
  | case7 negative sum e => cases h

/-- The sum of an evaluated number has its number. -/
theorem numberIn_ofExpr (m : MemoryState) {e : Expr} {sum : LinearSum} (h : ofExpr e = .ok sum) :
    e.numberIn? m = some (sum.numberIn m) := by
  obtain ⟨n, hn, hsum⟩ := numberIn_addExpr m h
  have hempty : ({} : LinearSum).numberIn m = 0 := rfl
  rw [hn, hsum, hempty, Int.zero_add]
  rfl

end LinearSum

/-! ## Comparisons -/

namespace ComparisonOp

/-- Operands that trade places trade their comparison too. -/
theorem relates_reverse (op : ComparisonOp) (a b : Int) : op.reverse.relates a b = op.relates b a := by
  cases op with
  | equal | notEqual => simp [reverse, relates, eq_comm]
  | _ => rfl

/-- A constant may be added on both sides of a comparison. -/
theorem relates_add (op : ComparisonOp) (a b c : Int) : op.relates (a + c) (b + c) = op.relates a b := by
  cases op <;> simp [relates]

end ComparisonOp

namespace SumTerm

/-- A source gives the number of its memory read, scaled. -/
theorem sourceNumber_source (m : MemoryState) (term : SumTerm) : term.source.sourceNumber m = term.scaledIn m := by
  unfold source Condition.sourceNumber scaledIn
  cases term.scaling <;> rfl

/-- Working through sources adds up their numbers. -/
theorem groupFrom_sources (m : MemoryState) (sum : Int) (running : Running) (terms : List SumTerm)
    (conditions : List Condition) :
    groupFrom m sum running (terms.map source ++ conditions) = groupFrom m (sum + totalIn m terms) running conditions := by
  induction terms generalizing sum with
  | nil => simp [totalIn]
  | cons term terms ih =>
    have hnumber := sourceNumber_source m term
    cases hneg : term.negative with
    | false =>
      have hflag : term.source.flag = .addSource := by simp [source, hneg]
      have hhits : term.source.hits = 0 := rfl
      rw [List.map_cons, List.cons_append, groupFrom]
      simp only [hhits, hflag, hnumber, ih, totalIn, numberIn, hneg]
      simp [Int.add_assoc]
    | true =>
      have hflag : term.source.flag = .subSource := by simp [source, hneg]
      have hhits : term.source.hits = 0 := rfl
      rw [List.map_cons, List.cons_append, groupFrom]
      simp only [hhits, hflag, hnumber, ih, totalIn, numberIn, hneg]
      simp [Int.add_assoc, Int.sub_eq_add_neg]

/-- Taking the last plain memory read out of a sum takes off its number. -/
theorem totalIn_lastPlain (m : MemoryState) {terms others : List SumTerm} {read : MemoryRead}
    (h : lastPlain? terms = some (read, others)) : totalIn m terms = totalIn m others + m read := by
  induction terms generalizing others with
  | nil => cases h
  | cons term terms ih =>
    rw [lastPlain?] at h
    split at h
    · rename_i read' others' hlast
      obtain ⟨rfl, rfl⟩ := Prod.mk.inj (Option.some.inj h)
      rw [totalIn, totalIn, ih hlast, Int.add_assoc]
    · split at h
      · rename_i hplain
        obtain ⟨rfl, rfl⟩ := Prod.mk.inj (Option.some.inj h)
        simp only [isPlain, Bool.and_eq_true, Bool.not_eq_true', decide_eq_true_eq] at hplain
        simp only [totalIn, numberIn, scaledIn, hplain.1, hplain.2]
        simp [Int.add_comm]
      · cases h

end SumTerm

namespace Lowering

/-- A number that a comparison is made with keeps its value. -/
theorem numberIn_numberOperand (m : MemoryState) {e : Expr} {value : Int64} {operand : Operand}
    (h : numberOperand e value = .ok operand) : operand.numberIn m = value.toInt := by
  unfold numberOperand at h
  split at h
  · cases h
  · split at h
    · rename_i number hnumber
      rw [← Except.ok.inj h]
      exact uint32?_eq_some_iff.mp hnumber
    · cases h

/-- The right operand of a comparison has the number of the right side, less the constant of the left one. -/
theorem numberIn_rightOperand (m : MemoryState) {e left right : Expr} {offset : Int64} {operand : Operand}
    (h : rightOperand e left right offset = .ok operand) :
    right.numberIn? m = some (operand.numberIn m + offset.toInt) := by
  unfold rightOperand at h
  split at h
  · rename_i mark value
    split at h
    · rename_i adjusted hadjusted
      rw [numberIn_numberOperand m h, int64?_eq_some_iff.mp hadjusted, Int.sub_add_cancel]
      rfl
    · cases h
  · rename_i mark read
    split at h
    · rename_i hzero
      subst hzero
      rw [← Except.ok.inj h]
      exact congrArg some (Int.add_zero _).symm
    · cases h
  · cases h

/-- What a lowered comparison is: sources, and a plain comparison that holds after them in the states in which the
comparison of the script holds. -/
structure ComparesAs (e : Expr) (conditions : List Condition) (terms : List SumTerm) (last : Condition) : Prop where
  conditions_eq : conditions = terms.map SumTerm.source ++ [last]
  flag_eq : last.flag = .plain
  hits_eq : last.hits = 0
  isComparison : ∃ op operand, last.right? = some (.compare op, operand)
  truth_eq : ∀ m, e.truthIn? m = some (last.compares m (SumTerm.totalIn m terms))

/-- A comparison whose left side is a sum is lowered exactly, whichever of its memory reads is compared last. -/
theorem comparesAs_of_sum {mark : Mark} {op : ComparisonOp} {e left right : Expr} {sum : LinearSum} {operand : Operand}
    (hsum : LinearSum.ofExpr left = .ok sum) (hright : rightOperand e left right sum.offset = .ok operand)
    {terms : List SumTerm} {last : Operand}
    (hlast : ∀ m, SumTerm.totalIn m sum.terms = SumTerm.totalIn m terms + last.numberIn m) :
    ComparesAs (.comparison mark op left right) (terms.map SumTerm.source ++ [.comparison last op operand]) terms
      (.comparison last op operand) := by
  refine ⟨rfl, rfl, rfl, ⟨op, operand, rfl⟩, fun m => ?_⟩
  have hnumber := LinearSum.numberIn_ofExpr m hsum
  have hoperand := numberIn_rightOperand m hright
  rw [LinearSum.numberIn, hlast m] at hnumber
  simp [Expr.truthIn?, hnumber, hoperand, Condition.compares, Condition.comparison, ComparisonOp.relates_add]

/-- Lowering a comparison with a sum on its left side is exact. -/
theorem sumComparison_exact {op : ComparisonOp} {e left right : Expr} {conditions : List Condition}
    (h : sumComparison e op left right = .ok conditions) (mark : Mark) :
    ∃ terms last, ComparesAs (.comparison mark op left right) conditions terms last := by
  obtain ⟨sum, hsum, h⟩ := bind_eq_ok.mp h
  split at h
  · cases h
  · obtain ⟨operand, hright, h⟩ := bind_eq_ok.mp h
    split at h
    · rename_i read others hlast
      rw [← Except.ok.inj h]
      exact ⟨_, _, comparesAs_of_sum hsum hright fun m => SumTerm.totalIn_lastPlain m hlast⟩
    · rw [← Except.ok.inj h]
      exact ⟨_, _, comparesAs_of_sum hsum hright fun m => (Int.add_zero _).symm⟩

/-- Lowering a comparison is exact. -/
theorem comparison_exact {op : ComparisonOp} {e left right : Expr} {conditions : List Condition}
    (h : comparison e op left right = .ok conditions) (mark : Mark) :
    ∃ terms last, ComparesAs (.comparison mark op left right) conditions terms last := by
  unfold comparison at h
  split at h
  · obtain ⟨terms, last, hlast⟩ := sumComparison_exact h mark
    refine ⟨terms, last, { hlast with truth_eq := fun m => ?_ }⟩
    rw [← hlast.truth_eq m]
    simp only [Expr.truthIn?]
    cases left.numberIn? m <;> cases right.numberIn? m <;> simp [ComparisonOp.relates_reverse]
  · exact sumComparison_exact h mark

end Lowering

end TriggerScript
