import TriggerScript.Proofs.Expr.Nodes
import TriggerScript.Proofs.Lowering.Comparison
import TriggerScript.Proofs.Lowering.Steps

/-!
# Lowered arithmetic

Lowering computes nothing that memory decides, so what it writes down has to add up to what was meant. The lines of a
comparison do: its sources and its last left operand add up to one side, less a constant that was moved across the operator
(`Lowering.lines_add_up`). So do the terms of a value (`Value.terms_add_up`), which also takes every sum of memory reads,
whole multiples of memory reads and constants, as long as the constants can be added up from left to right in 64 bits.
-/

namespace TriggerScript

/-! ## Comparisons -/

/-- What sources give to the condition after them. -/
def Condition.sourceTotal (m : MemoryState) : List Condition → Int
  | [] => 0
  | source :: sources =>
    (if source.flag = .subSource then -source.sourceNumber m else source.sourceNumber m) + sourceTotal m sources

namespace SumTerm

/-- The sources of memory reads give their numbers. -/
theorem sourceTotal_map_source (m : MemoryState) (terms : List SumTerm) :
    Condition.sourceTotal m (terms.map source) = totalIn m terms := by
  induction terms with
  | nil => rfl
  | cons term terms ih =>
    have hflag : term.source.flag = .subSource ↔ term.negative = true := by
      unfold source
      cases term.negative <;> simp
    rw [List.map_cons, Condition.sourceTotal, totalIn, ih, sourceNumber_source, numberIn]
    simp only [hflag]

end SumTerm

namespace Lowering

/-- The lines of a lowered comparison are sources and a plain comparison behind them. In every state, what the sources give
and the left operand of the last line add up to a number that compares with its right operand as the sides of the comparison
of the script do. -/
theorem lines_add_up {op : ComparisonOp} {e left right : Expr} {conditions : List Condition}
    (h : comparison e op left right = .ok conditions) (mark : Mark) :
    ∃ sources operand op' operand', conditions = sources ++ [.comparison operand op' operand'] ∧
      (∀ source ∈ sources, source.flag = .addSource ∨ source.flag = .subSource) ∧
      ∀ m, (Expr.comparison mark op left right).truthIn? m =
        some (op'.relates (Condition.sourceTotal m sources + operand.numberIn m) (operand'.numberIn m)) := by
  obtain ⟨terms, last, hlast⟩ := comparison_exact h mark
  obtain ⟨op', operand', hright⟩ := hlast.isComparison
  have hplain : last = .comparison last.left op' operand' := by
    rw [Condition.comparison, ← hright, ← hlast.flag_eq, ← hlast.hits_eq]
  refine ⟨terms.map SumTerm.source, last.left, op', operand', ?_, fun source hsource => ?_, fun m => ?_⟩
  · rw [← hplain]
    exact hlast.conditions_eq
  · obtain ⟨term, _, rfl⟩ := List.mem_map.mp hsource
    unfold SumTerm.source
    cases term.negative with
    | false => exact .inl rfl
    | true => exact .inr rfl
  · rw [hlast.truth_eq m, SumTerm.sourceTotal_map_source, Condition.compares, hright]

/-- Two bytes, less a third one twice, plus four. -/
def scaledSum : Expr :=
  let byte (address : UInt32) : Expr := .memory {} (.ofSize .byte address)
  let sum : Expr := .arithmetic {} .subtract (.arithmetic {} .add (byte 1) (byte 2))
    (.arithmetic {} .multiply (byte 3) (.integer {} 2))
  .arithmetic {} .add sum (.integer {} 4)

/-- The lines of `10 < byte(1) + byte(2) - byte(3) * 2 + 4`: the four was moved to the ten, and the sides have changed
places. -/
def scaledLines : List Condition :=
  let byte (address : UInt32) : Operand := .memory (.ofSize .byte address)
  [{ flag := .addSource, left := byte 1, right? := none },
    { flag := .subSource, left := byte 3, right? := some (.multiply, .number 2) },
    .comparison (byte 2) .greater (.number 6)]

/-- A sum with a scaled read on the right side is compared by lines that add up to it. -/
theorem lines_add_up_scaledSum :
    comparison scaledSum .less (.integer {} 10) scaledSum = .ok scaledLines ∧
      ∃ sources operand op' operand', scaledLines = sources ++ [.comparison operand op' operand'] ∧
        (∀ source ∈ sources, source.flag = .addSource ∨ source.flag = .subSource) ∧
        ∀ m, (Expr.comparison {} .less (.integer {} 10) scaledSum).truthIn? m =
          some (op'.relates (Condition.sourceTotal m sources + operand.numberIn m) (operand'.numberIn m)) :=
  have hlines : comparison scaledSum .less (.integer {} 10) scaledSum = .ok scaledLines := rfl
  ⟨hlines, lines_add_up hlines {}⟩

end Lowering

/-! ## Values -/

/-- The number that a term of a value adds. -/
def ValueTerm.numberIn (m : MemoryState) : ValueTerm → Int
  | .scaled operand multiplier => operand.numberIn m * multiplier.toInt
  | .constant value => value.toInt

/-- The number that terms add up to. -/
def ValueTerm.totalIn (m : MemoryState) : List ValueTerm → Int
  | [] => 0
  | term :: terms => term.numberIn m + totalIn m terms

/-- The number that a value has in a state. -/
def Value.numberIn (m : MemoryState) (value : Value) : Int :=
  ValueTerm.totalIn m value.terms

theorem ValueTerm.totalIn_append (m : MemoryState) (terms others : List ValueTerm) :
    totalIn m (terms ++ others) = totalIn m terms + totalIn m others := by
  induction terms with
  | nil => simp [totalIn]
  | cons term terms ih => rw [List.cons_append, totalIn, totalIn, ih, Int.add_assoc]

namespace SumTerm

/-- A factor is a multiplier with its sign. -/
theorem toInt_factor (negative : Bool) (factor : UInt32) :
    (if negative then -Int64.ofNat factor.toNat else Int64.ofNat factor.toNat).toInt =
      LinearSum.signed negative factor.toNat := by
  have hlt := factor.toNat_lt
  have hfactor : (Int64.ofNat factor.toNat).toInt = factor.toNat := Int64.toInt_ofNat_of_lt (by omega)
  cases negative with
  | false => exact hfactor
  | true =>
    simp only [if_true, LinearSum.signed, Int64.toInt_neg, hfactor]
    exact Int.bmod_eq_of_le (by omega) (by omega)

/-- The term of a value for a memory read adds what the memory read does. -/
theorem numberIn_valueTerm? (m : MemoryState) {term : SumTerm} {lowered : ValueTerm}
    (h : term.valueTerm? = some lowered) : lowered.numberIn m = term.numberIn m := by
  rw [valueTerm?, Option.map_eq_some_iff] at h
  obtain ⟨factor, hfactor, rfl⟩ := h
  have hscaled : term.scaledIn m = m term.read * factor.toNat := by
    unfold scaledIn
    cases hscaling : term.scaling with
    | none =>
      rw [hscaling] at hfactor
      obtain rfl := Option.some.inj hfactor
      simp
    | multiply factor' =>
      rw [hscaling] at hfactor
      obtain rfl := Option.some.inj hfactor
      rfl
    | divide factor' =>
      rw [hscaling] at hfactor
      cases hfactor
  simp only [ValueTerm.numberIn, toInt_factor, numberIn, hscaled, Operand.numberIn, LinearSum.signed]
  cases term.negative with
  | false => rfl
  | true => exact Int.mul_neg _ _

/-- Lowered terms have the total of the terms they are made from. -/
theorem totalIn_mapM (m : MemoryState) {terms : List SumTerm} {lowered : List ValueTerm}
    (h : terms.mapM valueTerm? = some lowered) : ValueTerm.totalIn m lowered = totalIn m terms := by
  induction terms generalizing lowered with
  | nil =>
    obtain rfl := Option.some.inj h
    rfl
  | cons term terms ih =>
    rw [List.mapM_cons] at h
    obtain ⟨first, hfirst, h⟩ := Option.bind_eq_some_iff.mp h
    obtain ⟨others, hothers, h⟩ := Option.bind_eq_some_iff.mp h
    obtain rfl := Option.some.inj h
    rw [ValueTerm.totalIn, totalIn, numberIn_valueTerm? m hfirst, ih hothers]

/-- Memory reads all have terms exactly if each of them has one. -/
theorem exists_mapM_iff {terms : List SumTerm} :
    (∃ lowered, terms.mapM valueTerm? = some lowered) ↔ ∀ term ∈ terms, term.valueTerm?.isSome = true := by
  induction terms with
  | nil => exact ⟨fun _ => List.forall_mem_nil _, fun _ => ⟨[], rfl⟩⟩
  | cons term terms ih =>
    rw [List.forall_mem_cons, ← ih, List.mapM_cons]
    constructor
    · rintro ⟨lowered, h⟩
      obtain ⟨first, hfirst, h⟩ := Option.bind_eq_some_iff.mp h
      obtain ⟨others, hothers, _⟩ := Option.bind_eq_some_iff.mp h
      exact ⟨Option.isSome_iff_exists.mpr ⟨first, hfirst⟩, others, hothers⟩
    · rintro ⟨hfirst, others, hothers⟩
      obtain ⟨first, hfirst⟩ := Option.isSome_iff_exists.mp hfirst
      exact ⟨first :: others, by simp [hfirst, hothers]⟩

end SumTerm

namespace Value

/-- A sum whose memory reads all have terms is a value. -/
theorem exists_ofExpr {e : Expr} {sum : LinearSum} {terms : List ValueTerm} (hsum : LinearSum.ofExpr e = .ok sum)
    (hterms : sum.terms.mapM SumTerm.valueTerm? = some terms) : ∃ value, ofExpr e = .ok value := by
  unfold ofExpr
  simp only [hsum, hterms, bind, Except.bind]
  split
  · exact ⟨_, rfl⟩
  · exact ⟨_, rfl⟩

/-- The terms of a value add up to the number that it was lowered from. -/
theorem numberIn_ofExpr {e : Expr} {value : Value} (h : ofExpr e = .ok value) (m : MemoryState) :
    e.numberIn? m = some (value.numberIn m) := by
  obtain ⟨sum, terms, hsum, hterms, hvalue⟩ := ofExpr_eq_ok h
  rw [LinearSum.numberIn_ofExpr m hsum, LinearSum.numberIn, ← SumTerm.totalIn_mapM m hterms, numberIn, hvalue]
  split
  · rw [ValueTerm.totalIn_append]
    simp [ValueTerm.totalIn, ValueTerm.numberIn]
  · rename_i hkept
    have hzero : sum.offset = 0 := Decidable.byContradiction fun hne => hkept (.inl hne)
    rw [hzero]
    exact congrArg some (Int.add_zero _)

end Value

/-! ### Sums that have a value -/

namespace Expr

/-- Whether an expression is a memory read, and another one a number that it can be scaled by. -/
def isScaledBy : Expr → Expr → Bool
  | .memory .., .integer _ factor => (uint32? factor.toInt).isSome
  | _, _ => false

/-- What is scaled is a read of memory times a factor of 32 bits. -/
theorem eq_of_isScaledBy {left right : Expr} (h : left.isScaledBy right = true) :
    ∃ mark read mark' factor, left = .memory mark read ∧ right = .integer mark' factor ∧
      (uint32? factor.toInt).isSome = true := by
  unfold isScaledBy at h
  split at h
  · exact ⟨_, _, _, _, rfl, rfl, h⟩
  · cases h

/-- Whether an expression is a sum of integers, memory reads and multiples of memory reads. -/
def isMultipleSum : Expr → Bool
  | .integer .. | .memory .. => true
  | .arithmetic _ .add left right | .arithmetic _ .subtract left right => left.isMultipleSum && right.isMultipleSum
  | .arithmetic _ .multiply left right => left.isScaledBy right || right.isScaledBy left
  | _ => false

/-- The integers that a sum adds, with their signs. -/
def constants : (negative : Bool) → Expr → List Int
  | negative, .integer _ value => [LinearSum.signed negative value.toInt]
  | negative, .arithmetic _ .add left right => left.constants negative ++ right.constants negative
  | negative, .arithmetic _ .subtract left right => left.constants negative ++ right.constants (!negative)
  | _, _ => []

end Expr

/-- Integers added one after the other; nothing if one of them or a sum on the way does not fit into 64 bits. -/
def checkedTotal? (sum : Int64) : List Int → Option Int64
  | [] => some sum
  | n :: ns => do
    let delta ← int64? n
    checkedTotal? (← int64? (sum.toInt + delta.toInt)) ns

/-- Numbers are added up to any place, and from there on. -/
theorem checkedTotal?_append (sum : Int64) (ns ns' : List Int) :
    checkedTotal? sum (ns ++ ns') = (checkedTotal? sum ns).bind (checkedTotal? · ns') := by
  induction ns generalizing sum with
  | nil => rfl
  | cons n ns ih => simp [checkedTotal?, ih, Option.bind_assoc]

namespace LinearSum

/-- Adding a constant adds it to the constants before it, if it can be added. -/
theorem addConstant_eq_ok_iff {e : Expr} {negative : Bool} {value : Int64} {sum sum' : LinearSum} :
    sum.addConstant e negative value = .ok sum' ↔
      checkedTotal? sum.offset [signed negative value.toInt] = some sum'.offset ∧ sum'.terms = sum.terms := by
  have hdelta : (if negative then int64? (-value.toInt) else some value) = int64? (signed negative value.toInt) := by
    cases negative with
    | false => exact (int64?_eq_some_iff.mpr rfl).symm
    | true => rfl
  have htotal : checkedTotal? sum.offset [signed negative value.toInt] =
      (int64? (signed negative value.toInt)).bind fun delta => int64? (sum.offset.toInt + delta.toInt) := by
    simp [checkedTotal?]
  rw [addConstant, hdelta, htotal]
  cases (int64? (signed negative value.toInt)).bind fun delta => int64? (sum.offset.toInt + delta.toInt) with
  | none => simp
  | some offset =>
    obtain ⟨terms, offset'⟩ := sum'
    simp only [Except.ok.injEq, mk.injEq, Option.some.injEq]
    constructor
    · rintro ⟨rfl, rfl⟩
      exact ⟨rfl, rfl⟩
    · rintro ⟨rfl, rfl⟩
      exact ⟨rfl, rfl⟩

/-- A product or quotient adds one memory read, which has a term in a value if it is a multiple. -/
theorem addScaled_eq_ok {e left right : Expr} {negative : Bool} {op : ArithmeticOp} {sum sum' : LinearSum}
    (h : sum.addScaled e negative op left right = .ok sum') :
    sum'.offset = sum.offset ∧ ∃ term, sum'.terms = sum.terms ++ [term] ∧
      (op = .multiply → term.valueTerm?.isSome = true ∧ (left.isScaledBy right || right.isScaledBy left) = true) ∧
      (op ≠ .multiply → term.valueTerm? = none) := by
  unfold addScaled at h
  split at h
  · cases h
  · rename_i read factor hread
    split at h
    · cases h
    · split at h
      · cases h
      · rename_i scale hscale
        rw [← Except.ok.inj h]
        refine ⟨rfl, _, rfl, fun hop => ?_, fun hop => ?_⟩
        · rw [if_pos hop]
          refine ⟨rfl, ?_⟩
          have hfits : (uint32? factor.toInt).isSome = true := by rw [hscale]; rfl
          unfold scaledRead? at hread
          split at hread
          · obtain ⟨rfl, rfl⟩ := Prod.mk.inj (Option.some.inj hread)
            simp [Expr.isScaledBy, hfits]
          · rw [if_pos hop] at hread
            obtain ⟨rfl, rfl⟩ := Prod.mk.inj (Option.some.inj hread)
            simp [Expr.isScaledBy, hfits]
          · cases hread
        · rw [if_neg hop]
          rfl

/-- A multiple of a memory read can always be added. -/
theorem exists_addScaled {e left right : Expr} (h : (left.isScaledBy right || right.isScaledBy left) = true)
    (negative : Bool) (sum : LinearSum) : ∃ sum', sum.addScaled e negative .multiply left right = .ok sum' := by
  have hread : ∃ read factor, scaledRead? .multiply left right = some (read, factor) ∧
      (uint32? factor.toInt).isSome = true := by
    rcases Bool.or_eq_true_iff.mp h with h | h
    all_goals
      obtain ⟨_, read, _, factor, rfl, rfl, hfits⟩ := Expr.eq_of_isScaledBy h
      exact ⟨read, factor, rfl, hfits⟩
  obtain ⟨read, factor, hread, hfits⟩ := hread
  obtain ⟨scale, hscale⟩ := Option.isSome_iff_exists.mp hfits
  exact ⟨sum.addTerm { read, negative, scaling := .multiply scale }, by simp [addScaled, hread, hscale]⟩

/-- What adding a number to a sum adds: constants, which are checked on the way, and memory reads, which all have terms in a
value or do not. -/
structure Adds (constants : List Int) (multiples : Bool) (sum sum' : LinearSum) : Prop where
  offset : checkedTotal? sum.offset constants = some sum'.offset
  terms : ∃ added, sum'.terms = sum.terms ++ added ∧
    ((∀ term ∈ added, term.valueTerm?.isSome = true) ↔ multiples = true)

/-- What is added in two steps is added in one. -/
theorem Adds.append {ns ns' : List Int} {multiples multiples' : Bool} {sum between sum' : LinearSum}
    (h : Adds ns multiples sum between) (h' : Adds ns' multiples' between sum') :
    Adds (ns ++ ns') (multiples && multiples') sum sum' := by
  obtain ⟨added, hterms, hadded⟩ := h.terms
  obtain ⟨added', hterms', hadded'⟩ := h'.terms
  refine ⟨by rw [checkedTotal?_append, h.offset, Option.bind_some, h'.offset], added ++ added', ?_, ?_⟩
  · rw [hterms', hterms, List.append_assoc]
  · rw [List.forall_mem_append, hadded, hadded', Bool.and_eq_true]

/-- Adding a number adds its constants, and memory reads that have terms in a value if it is a sum of multiples. -/
theorem adds_addExpr {e : Expr} {negative : Bool} {sum sum' : LinearSum} (h : sum.addExpr negative e = .ok sum') :
    Adds (e.constants negative) e.isMultipleSum sum sum' := by
  fun_induction addExpr negative sum e generalizing sum' with
  | case1 negative sum mark value =>
    obtain ⟨hoffset, hterms⟩ := addConstant_eq_ok_iff.mp h
    exact ⟨hoffset, [], by rw [hterms, List.append_nil], fun _ => rfl, fun _ => List.forall_mem_nil _⟩
  | case2 negative sum mark read =>
    rw [← Except.ok.inj h]
    exact ⟨rfl, _, rfl, fun _ => rfl, fun _ => List.forall_mem_singleton.mpr rfl⟩
  | case3 negative sum mark left right ihl ihr | case4 negative sum mark left right ihl ihr =>
    obtain ⟨between, hl, hr⟩ := bind_eq_ok.mp h
    exact (ihl hl).append (ihr between hr)
  | case5 negative sum mark left right =>
    obtain ⟨hoffset, term, hterms, hmultiple, _⟩ := addScaled_eq_ok h
    obtain ⟨hterm, hscaled⟩ := hmultiple rfl
    exact ⟨by rw [hoffset]; rfl, [term], hterms, fun _ => hscaled, fun _ => List.forall_mem_singleton.mpr hterm⟩
  | case6 negative sum mark left right =>
    obtain ⟨hoffset, term, hterms, _, hquotient⟩ := addScaled_eq_ok h
    refine ⟨by rw [hoffset]; rfl, [term], hterms, fun hall => ?_, fun hfalse => by cases hfalse⟩
    have hterm := List.forall_mem_singleton.mp hall
    rw [hquotient (by decide)] at hterm
    cases hterm
  | case7 negative sum e => cases h

/-- Two numbers can be added one after the other if their constants can and each number can once its constants can. -/
theorem exists_add_both {left right : Expr} {negative negative' : Bool} {sum : LinearSum} {offset : Int64}
    (h : checkedTotal? sum.offset (left.constants negative ++ right.constants negative') = some offset)
    (hl : ∀ {offset}, checkedTotal? sum.offset (left.constants negative) = some offset →
      ∃ between, sum.addExpr negative left = .ok between)
    (hr : ∀ (between : LinearSum) {offset}, checkedTotal? between.offset (right.constants negative') = some offset →
      ∃ sum', between.addExpr negative' right = .ok sum') :
    ∃ sum', (sum.addExpr negative left >>= fun between => between.addExpr negative' right) = .ok sum' := by
  rw [checkedTotal?_append] at h
  obtain ⟨middle, hleft, hright⟩ := Option.bind_eq_some_iff.mp h
  obtain ⟨between, hbetween⟩ := hl hleft
  obtain rfl : middle = between.offset := Option.some.inj (hleft.symm.trans (adds_addExpr hbetween).offset)
  obtain ⟨sum', hsum⟩ := hr between hright
  exact ⟨sum', bind_eq_ok.mpr ⟨between, hbetween, hsum⟩⟩

/-- A sum of multiples can be added if its constants can. -/
theorem exists_addExpr {e : Expr} {negative : Bool} {sum : LinearSum} {offset : Int64} (he : e.isMultipleSum = true)
    (h : checkedTotal? sum.offset (e.constants negative) = some offset) : ∃ sum', sum.addExpr negative e = .ok sum' := by
  fun_induction addExpr negative sum e generalizing offset with
  | case1 negative sum mark value => exact ⟨{ sum with offset }, addConstant_eq_ok_iff.mpr ⟨h, rfl⟩⟩
  | case2 negative sum mark read => exact ⟨_, rfl⟩
  | case3 negative sum mark left right ihl ihr | case4 negative sum mark left right ihl ihr =>
    rw [Expr.isMultipleSum, Bool.and_eq_true] at he
    exact exists_add_both h (ihl he.1) fun between => ihr between he.2
  | case5 negative sum mark left right => exact exists_addScaled he negative sum
  | case6 negative sum mark left right => cases he
  | case7 negative sum e =>
    unfold Expr.isMultipleSum at he
    split at he <;> simp_all

end LinearSum

namespace Expr

/-- Whether an expression is an integer that no memory read can be scaled by: it is negative or has more than 32 bits. -/
def isOutOfScale : Expr → Bool
  | .integer _ factor => factor.toInt < 0 || (UInt32.size : Int) ≤ factor.toInt
  | _ => false

/-- Whether a node keeps a tree from being a value: a quotient, a remainder, a product of two parts that are no constants or
with an integer that is out of scale, and whatever is no number. -/
def isNoPartOfValue : Expr → Bool
  | .integer .. | .memory .. | .arithmetic _ .add _ _ | .arithmetic _ .subtract _ _ => false
  | .arithmetic _ .multiply left right =>
    (!left.isConstant && !right.isConstant) || left.isOutOfScale || right.isOutOfScale
  | _ => true

/-- The integers that are in scale are those that fit into 32 bits. -/
theorem isOutOfScale_integer {factor : Int64} (h : (uint32? factor.toInt).isSome = true) (mark : Mark) :
    (integer mark factor).isOutOfScale = false := by
  obtain ⟨scale, hscale⟩ := Option.isSome_iff_exists.mp h
  have hfactor : (scale.toNat : Int) = factor.toInt := uint32?_eq_some_iff.mp hscale
  have hlt : (scale.toNat : Int) < UInt32.size := Int.ofNat_lt.mpr scale.toNat_lt
  simp only [isOutOfScale, ← hfactor, Bool.or_eq_false_iff, decide_eq_false_iff_not]
  omega

/-- No node of a sum of multiples keeps it from being a value. -/
theorem everywhere_of_isMultipleSum {e : Expr} (h : e.isMultipleSum = true) :
    e.Everywhere fun node => node.isNoPartOfValue = false := by
  fun_induction isMultipleSum e with
  | case1 | case2 => exact everywhere_of_children_nil rfl rfl
  | case3 mark left right ihl ihr | case4 mark left right ihl ihr =>
    rw [Bool.and_eq_true] at h
    refine everywhere_iff.mpr ⟨rfl, ?_⟩
    simp [children, ihl h.1, ihr h.2]
  | case5 mark left right =>
    rcases Bool.or_eq_true_iff.mp h with h | h
    all_goals
      obtain ⟨mark, read, mark', factor, rfl, rfl, hfits⟩ := eq_of_isScaledBy h
      have hread : (memory mark read).Everywhere fun node => node.isNoPartOfValue = false :=
        everywhere_of_children_nil rfl rfl
      have hfactor : (integer mark' factor).Everywhere fun node => node.isNoPartOfValue = false :=
        everywhere_of_children_nil rfl rfl
      refine everywhere_iff.mpr ⟨?_, by simp [children, hread, hfactor]⟩
      simp only [isNoPartOfValue, isOutOfScale_integer hfits]
      rfl
  | case6 => cases h

end Expr

namespace Value

/-- An expression has a value exactly if it is a sum of multiples whose constants can be added up. -/
theorem exists_ofExpr_iff {e : Expr} :
    (∃ value, ofExpr e = .ok value) ↔
      e.isMultipleSum = true ∧ (checkedTotal? 0 (e.constants false)).isSome = true := by
  constructor
  · rintro ⟨value, h⟩
    obtain ⟨sum, terms, hsum, hterms, _⟩ := ofExpr_eq_ok h
    obtain ⟨hoffset, added, hadded, hmultiples⟩ := LinearSum.adds_addExpr hsum
    have hsome := SumTerm.exists_mapM_iff.mp ⟨terms, hterms⟩
    rw [hadded] at hsome
    exact ⟨hmultiples.mp hsome, Option.isSome_iff_exists.mpr ⟨_, hoffset⟩⟩
  · rintro ⟨hmultiples, hconstants⟩
    obtain ⟨offset, hoffset⟩ := Option.isSome_iff_exists.mp hconstants
    obtain ⟨sum, hsum⟩ := @LinearSum.exists_addExpr e false {} offset hmultiples hoffset
    obtain ⟨_, added, hadded, hall⟩ := LinearSum.adds_addExpr hsum
    have hsome : ∀ term ∈ sum.terms, term.valueTerm?.isSome = true := by
      rw [hadded]
      exact hall.mpr hmultiples
    obtain ⟨terms, hterms⟩ := SumTerm.exists_mapM_iff.mpr hsome
    exact exists_ofExpr hsum hterms

/-- A value has a term, and its terms add up to the number that it was lowered from, in every state. Quotients, remainders,
products of two parts that are no constants, factors out of scale and whatever is no number have no value, wherever they
stand. An expression has a value exactly if it is a sum of multiples whose constants can be added up. -/
theorem terms_add_up (e : Expr) :
    (∀ value, ofExpr e = .ok value → value.terms ≠ [] ∧ ∀ m, e.numberIn? m = some (value.numberIn m)) ∧
      (∀ node ∈ e.nodes, node.isNoPartOfValue = true → ∃ error, ofExpr e = .error error) ∧
      ((∃ value, ofExpr e = .ok value) ↔
        e.isMultipleSum = true ∧ (checkedTotal? 0 (e.constants false)).isSome = true) := by
  refine ⟨fun value h => ⟨terms_ne_nil h, numberIn_ofExpr h⟩, fun node hnode hforeign => ?_, exists_ofExpr_iff⟩
  cases h : ofExpr e with
  | error error => exact ⟨error, rfl⟩
  | ok value =>
    have hmultiples := (exists_ofExpr_iff.mp ⟨value, h⟩).1
    have hclean : node.isNoPartOfValue = false := Expr.everywhere_of_isMultipleSum hmultiples node hnode
    rw [hforeign] at hclean
    cases hclean

/-- A hundred times a byte, less an expression and a constant. -/
def scaledDifference (subtrahend : Expr) : Expr :=
  .arithmetic {} .subtract (.arithmetic {} .multiply (.integer {} 100) (.memory {} (.ofSize .byte 1)))
    (.arithmetic {} .add subtrahend (.integer {} 5))

/-- The difference to a byte adds up, and the difference to a quotient is refused. -/
theorem terms_add_up_scaledDifference :
    let read : Expr := .memory {} (.ofSize .byte 2)
    let quotient : Expr := .arithmetic {} .divide read (.integer {} 2)
    let value : Value :=
      ⟨[.scaled (.memory (.ofSize .byte 1)) 100, .scaled (.memory (.ofSize .byte 2)) (-1), .constant (-5)]⟩
    ofExpr (scaledDifference read) = .ok value ∧
      (∀ m, (scaledDifference read).numberIn? m = some (value.numberIn m)) ∧
      quotient ∈ (scaledDifference quotient).nodes ∧ quotient.isNoPartOfValue = true ∧
      ∃ error, ofExpr (scaledDifference quotient) = .error error := by
  intro read quotient value
  have hvalue : ofExpr (scaledDifference read) = .ok value := rfl
  have hquotient : quotient ∈ (scaledDifference quotient).nodes := List.mem_of_getElem? (i := 5) rfl
  exact ⟨hvalue, ((terms_add_up _).1 value hvalue).2, hquotient, rfl, (terms_add_up _).2.1 quotient hquotient rfl⟩

end Value

end TriggerScript
