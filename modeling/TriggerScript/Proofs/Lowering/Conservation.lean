import TriggerScript.Proofs.Lowering.Soundness
import TriggerScript.Proofs.Lowering.Weights

/-!
# What lowering keeps

Every comparison and fixed truth of a condition becomes one line of its trigger that is compared, and every count of a
repeated condition or a tally becomes the hit count of one line. The lowering routines pass on inverted, split and sorted
conditions, and put flags and counts on lines that other routines made; none of them loses or doubles a line or a count.
-/

namespace TriggerScript

namespace Expr

mutual

/-- The comparisons and fixed truths that a condition is built from. What a comparison compares is none of them. -/
def conditionLeaves : Expr → List Expr
  | .comparison mark op left right => [.comparison mark op left right]
  | .boolean mark value => [.boolean mark value]
  | .alwaysTrue mark => [.alwaysTrue mark]
  | .alwaysFalse mark => [.alwaysFalse mark]
  | .logical _ _ left right => optionLeaves left ++ right.conditionLeaves
  | .modified _ _ condition => condition.conditionLeaves
  | .tally _ _ entries => listLeaves entries
  | _ => []

/-- The leaves of an operand that may be missing. -/
def optionLeaves : Option Expr → List Expr
  | none => []
  | some e => e.conditionLeaves

/-- The leaves of a list of conditions. -/
def listLeaves : List Expr → List Expr
  | [] => []
  | e :: es => e.conditionLeaves ++ listLeaves es

end

/-- The count that a node has to reach, if it is a repeated condition or a tally. -/
def hitCount? : Expr → Option UInt32
  | .modified _ (.repeated count) _ => some count
  | .tally _ target _ => some target
  | _ => none

/-- The counts of all repeated conditions and tallies in a tree. -/
def hitCounts (e : Expr) : List UInt32 :=
  e.nodes.filterMap hitCount?

/-- The counts of a tree are that of its root and those of its parts. -/
theorem hitCounts_eq (e : Expr) : e.hitCounts = e.hitCount?.toList ++ e.children.flatMap hitCounts := by
  have hroot : e.hitCounts = e.hitCount?.toList ++ (e.children.flatMap nodes).filterMap hitCount? := by
    rw [hitCounts, nodes_eq]
    cases hcount : e.hitCount? with
    | none => rw [List.filterMap_cons_none hcount, Option.toList_none, List.nil_append]
    | some count => rw [List.filterMap_cons_some hcount, Option.toList_some, List.singleton_append]
  rw [hroot, List.filterMap_flatMap]
  rfl

/-- Nothing is counted in a number. -/
theorem hitCounts_of_numberIn? {m : MemoryState} {e : Expr} {n : Int} (h : e.numberIn? m = some n) : e.hitCounts = [] := by
  fun_induction numberIn? m e generalizing n with
  | case1 mark value | case2 mark read => rfl
  | case3 mark op left right ihl ihr =>
    obtain ⟨a, ha, h⟩ := Option.bind_eq_some_iff.mp h
    obtain ⟨b, hb, _⟩ := Option.bind_eq_some_iff.mp h
    rw [hitCounts_eq]
    simp [hitCount?, children, ihl ha, ihr hb]
  | case4 => cases h

/-- No negation in a tree has a left operand. -/
abbrev NegatesSingly (e : Expr) : Prop :=
  e.Everywhere (connects (fun op hasLeft => op ≠ .not || !hasLeft) · = true)

/-- A negation has no left operand. -/
theorem NegatesSingly.left_eq_none {mark : Mark} {left : Option Expr} {right : Expr}
    (h : (logical mark .not left right).NegatesSingly) : left = none := by
  cases left with
  | none => rfl
  | some left => cases h.root

/-- The parts of a condition negate single operands if the condition does. -/
theorem NegatesSingly.parts {e : Expr} (h : e.NegatesSingly) (op : LogicalOp) (negated : Bool) :
    ∀ part ∈ e.parts op negated, part.NegatesSingly :=
  h.parts_connects rfl rfl op negated

/-- What is taken out of a tree is a condition under a modifier that counts nothing. -/
def Unwraps (extract : Expr → Option Expr) : Prop :=
  ∀ e condition, extract e = some condition →
    ∃ mark modifier, e = .modified mark modifier condition ∧ e.hitCount? = none

/-- What is taken out of trees negates single operands if the trees do. -/
theorem Unwraps.negatesSingly {extract : Expr → Option Expr} (h : Unwraps extract) {es : List Expr}
    (hes : ∀ e ∈ es, e.NegatesSingly) : ∀ condition ∈ es.filterMap extract, condition.NegatesSingly := by
  intro condition hcondition
  obtain ⟨e, he, hextract⟩ := List.mem_filterMap.mp hcondition
  obtain ⟨mark, modifier, rfl, _⟩ := h e condition hextract
  exact (hes _ he).part (by simp [children])

/-- A reset is taken out of a modifier that counts nothing. -/
theorem unwraps_reset? : Unwraps Lowering.reset? := by
  intro e condition h
  obtain ⟨mark, rfl⟩ := Lowering.eq_of_reset? h
  exact ⟨mark, .never, rfl, rfl⟩

/-- A deduction is taken out of a modifier that counts nothing. -/
theorem unwraps_deduction? : Unwraps Lowering.deduction? := by
  intro e condition h
  obtain ⟨mark, rfl⟩ := Lowering.eq_of_deduction? h
  exact ⟨mark, .deduct, rfl, rfl⟩

end Expr

open TriggerScript.Expr

/-- What lowering neither loses nor doubles. -/
inductive Kept where
  /-- A line that is compared. -/
  | line
  /-- A hit count. -/
  | hits (count : UInt32) (ne_zero : count ≠ 0)

namespace Kept

/-- How often a leaf of a condition counts. -/
def perLeaf : Kept → Nat
  | line => 1
  | hits .. => 0

/-- How often a hit count counts. -/
def perCount : Kept → UInt32 → Nat
  | line, _ => 0
  | hits count _, count' => if count' = count then 1 else 0

/-- Whether a condition counts. -/
def isOn : Kept → Condition → Bool
  | line, condition => !condition.flag.isSource
  | hits count _, condition => condition.hits = count

/-- How many conditions count. -/
def inLines (kept : Kept) (conditions : List Condition) : Nat :=
  conditions.countP kept.isOn

/-- How much there is in a tree. -/
def inTree : Kept → Expr → Nat
  | line, e => e.conditionLeaves.length
  | hits count _, e => e.hitCounts.count count

/-- How much there is in a list of trees. -/
def inTrees (kept : Kept) : List Expr → Nat
  | [] => 0
  | e :: es => kept.inTree e + inTrees kept es

variable (kept : Kept)

/-! ## In trees -/

@[simp] theorem inTrees_append (es others : List Expr) :
    kept.inTrees (es ++ others) = kept.inTrees es + kept.inTrees others := by
  induction es with
  | nil => simp [inTrees]
  | cons e es ih => rw [List.cons_append, inTrees, inTrees, ih, Nat.add_assoc]

theorem inTrees_singleton (e : Expr) : kept.inTrees [e] = kept.inTree e :=
  rfl

/-- The leaves of a list are as many as the lines kept in its trees. -/
theorem length_listLeaves (es : List Expr) : (listLeaves es).length = line.inTrees es := by
  induction es with
  | nil => rfl
  | cons e es ih => rw [listLeaves, List.length_append, ih, inTrees, inTree]

/-- A count stands in the trees of a list as often as it is kept in them. -/
theorem count_flatMap_hitCounts (count : UInt32) (ne_zero : count ≠ 0) (es : List Expr) :
    (es.flatMap hitCounts).count count = (hits count ne_zero).inTrees es := by
  induction es with
  | nil => rfl
  | cons e es ih => rw [List.flatMap_cons, List.count_append, ih, inTrees, inTree]

/-- What there is in a condition that is no leaf: a count if it has one, and what there is in its parts. -/
theorem inTree_eq {e : Expr} (h : e.conditionLeaves.length = line.inTrees e.children) :
    kept.inTree e = (e.hitCount?.elim 0 kept.perCount) + kept.inTrees e.children := by
  cases kept with
  | line => cases hcount : e.hitCount? <;> simp [inTree, perCount, h]
  | hits count ne_zero =>
    rw [inTree, hitCounts_eq, List.count_append, count_flatMap_hitCounts count ne_zero]
    cases hcount : e.hitCount? <;> simp [perCount, List.count_cons]

/-- What there is in two joined conditions is what there is in both. -/
@[simp] theorem inTree_join (mark : Mark) (op : LogicalOp) (left right : Expr) :
    kept.inTree (.logical mark op (some left) right) = kept.inTree left + kept.inTree right := by
  rw [inTree_eq]
  · simp [hitCount?, children, inTrees]
  · simp [conditionLeaves, optionLeaves, children, inTrees, inTree]

/-- What there is under a connective with one operand is what there is in the operand. -/
@[simp] theorem inTree_lone (mark : Mark) (op : LogicalOp) (right : Expr) :
    kept.inTree (.logical mark op none right) = kept.inTree right := by
  rw [inTree_eq]
  · simp [hitCount?, children, inTrees]
  · simp [conditionLeaves, optionLeaves, children, inTrees, inTree]

/-- What there is in a modified condition is its count, if the modifier has one, and what there is in the condition. -/
theorem inTree_modified (mark : Mark) (modifier : Modifier) (condition : Expr) :
    kept.inTree (.modified mark modifier condition) =
      ((modified mark modifier condition).hitCount?.elim 0 kept.perCount) + kept.inTree condition :=
  kept.inTree_eq rfl

/-- What there is in a tally is its target and what there is in its entries. -/
theorem inTree_tally (mark : Mark) (target : UInt32) (entries : List Expr) :
    kept.inTree (.tally mark target entries) = kept.perCount target + kept.inTrees entries :=
  kept.inTree_eq (length_listLeaves entries)

/-- Inverting a condition keeps what there is in it. -/
theorem inTree_invert {e : Expr} (h : e.NegatesSingly) : kept.inTree e.invert = kept.inTree e := by
  fun_induction invert e with
  | case2 mark left right ihl ihr | case3 mark left right ihl ihr =>
    rw [inTree_join, inTree_join, ihl (h.part (by simp [children])), ihr (h.part (by simp [children]))]
  | case4 mark left right =>
    obtain rfl := h.left_eq_none
    exact (kept.inTree_lone mark .not right).symm
  | case8 e => exact kept.inTree_lone _ .not e
  | case1 mark op left right =>
    cases kept with
    | line => rfl
    | hits count ne_zero => rw [inTree, inTree, hitCounts_eq, hitCounts_eq (comparison mark op left right)]; rfl
  | case5 | case6 | case7 => cases kept <;> rfl

/-- Splitting a condition keeps what there is in it. -/
theorem inTrees_parts (op : LogicalOp) (negated : Bool) {e : Expr} (h : e.NegatesSingly) :
    kept.inTrees (e.parts op negated) = kept.inTree e := by
  fun_induction parts op negated e with
  | case1 mark left right _ ih | case6 mark left right ih =>
    obtain rfl := h.left_eq_none
    rw [ih (h.part (by simp [children])), inTree_lone]
  | case2 mark left right _ =>
    obtain rfl := h.left_eq_none
    rw [inTrees_singleton, kept.inTree_invert (h.part (by simp [children])), inTree_lone]
  | case3 mark left right _ ihl ihr | case7 mark op left right _ _ ihl ihr =>
    rw [inTrees_append, ihl (h.part (by simp [children])), ihr (h.part (by simp [children])), inTree_join]
  | case4 | case5 => exact kept.inTrees_singleton _
  | case8 | case9 => exact kept.inTree_invert h

/-- Taking conditions out of some trees of a list, and leaving the others, keeps what there is in the list. -/
theorem inTrees_extract {extract : Expr → Option Expr} (h : Unwraps extract) (es : List Expr) :
    kept.inTrees (es.filterMap extract) + kept.inTrees (es.filter fun e => (extract e).isNone) = kept.inTrees es := by
  induction es with
  | nil => rfl
  | cons e es ih =>
    cases hextract : extract e with
    | none =>
      rw [List.filterMap_cons_none hextract, List.filter_cons_of_pos (by simp [hextract]), inTrees, inTrees, ← ih]
      omega
    | some condition =>
      obtain ⟨mark, modifier, rfl, hcount⟩ := h e condition hextract
      rw [List.filterMap_cons_some hextract, List.filter_cons_of_neg (by simp [hextract]), inTrees, inTrees, ← ih,
        inTree_modified, hcount, Option.elim_none]
      omega

/-! ## In lines -/

@[simp] theorem inLines_append (conditions others : List Condition) :
    kept.inLines (conditions ++ others) = kept.inLines conditions + kept.inLines others :=
  List.countP_append

theorem inLines_concat (conditions : List Condition) (last : Condition) :
    kept.inLines (conditions ++ [last]) = kept.inLines conditions + if kept.isOn last then 1 else 0 := by
  rw [inLines_append]
  simp [inLines, List.countP_cons]

/-- A line that is neither a source nor counted counts as a leaf does. -/
theorem inLines_plain {condition : Condition} (hflag : condition.flag.isSource = false) (hhits : condition.hits = 0) :
    kept.inLines [condition] = kept.perLeaf := by
  cases kept with
  | line => simp [inLines, isOn, perLeaf, hflag]
  | hits count ne_zero => simp [inLines, isOn, perLeaf, hhits, ne_zero.symm]

/-- A count stands on as many lines as it is kept in. -/
theorem count_map_hits (count : UInt32) (ne_zero : count ≠ 0) (conditions : List Condition) :
    (conditions.map (·.hits)).count count = (hits count ne_zero).inLines conditions := by
  rw [List.count, List.countP_map, inLines]
  rfl

/-- A flag on a line makes no difference, if it makes no source of it. -/
theorem inLines_flagLast {flag : Flag} (hflag : flag.isSource = false) {e : Expr} {conditions flagged : List Condition}
    (h : Lowering.flagLast flag e conditions = .ok flagged) : kept.inLines flagged = kept.inLines conditions := by
  obtain ⟨init, last, rfl, hplain, rfl⟩ := Lowering.flagLast_eq_ok h
  have hisOn : kept.isOn { last with flag } = kept.isOn last := by
    cases kept with
    | line =>
      rw [isOn, isOn, hflag, hplain]
      rfl
    | hits count ne_zero => rfl
  rw [inLines_concat, inLines_concat, hisOn]

/-- A count on a line is one count more, as the line had none. -/
theorem inLines_countLast {count : UInt32} {e : Expr} {conditions counted : List Condition}
    (h : Lowering.countLast count e conditions = .ok counted) :
    kept.inLines counted = kept.perCount count + kept.inLines conditions := by
  obtain ⟨init, last, rfl, hzero, rfl⟩ := Lowering.countLast_eq_ok h
  rw [inLines_concat, inLines_concat]
  cases kept with
  | line => simp [isOn, perCount]
  | hits count' ne_zero =>
    simp only [isOn, perCount, hzero, decide_eq_true_eq, if_neg ne_zero.symm]
    omega

end Kept

namespace Lowering

/-- What lowers smaller conditions keeps what there is in them. -/
def LowersKeeping (kept : Kept) (lower : Expr → Except Error (List Condition)) : Prop :=
  ∀ e conditions, e.NegatesSingly → lower e = .ok conditions → kept.inLines conditions = kept.inTree e

section Routines

variable {kept : Kept} {lower : Expr → Except Error (List Condition)} (hlower : LowersKeeping kept lower)
include hlower

/-- Conditions lowered one after the other keep what there is in them. -/
theorem keeps_all {es : List Expr} {conditions : List Condition} (hes : ∀ e ∈ es, e.NegatesSingly)
    (h : all lower es = .ok conditions) : kept.inLines conditions = kept.inTrees es := by
  induction es generalizing conditions with
  | nil =>
    rw [← Except.ok.inj h]
    rfl
  | cons e es ih =>
    rw [List.forall_mem_cons] at hes
    obtain ⟨first, hfirst, h⟩ := bind_eq_ok.mp h
    obtain ⟨others, hothers, h⟩ := bind_eq_ok.mp h
    rw [← Except.ok.inj h, Kept.inLines_append, hlower e first hes.1 hfirst, ih hes.2 hothers, Kept.inTrees]

/-- Flags on the last lines of conditions make no difference, if they make no sources of them. -/
theorem keeps_allFlagged {flag : Flag} (hflag : flag.isSource = false) {es : List Expr} {conditions : List Condition}
    (hes : ∀ e ∈ es, e.NegatesSingly) (h : allFlagged lower flag es = .ok conditions) :
    kept.inLines conditions = kept.inTrees es := by
  induction es generalizing conditions with
  | nil =>
    rw [← Except.ok.inj h]
    rfl
  | cons e es ih =>
    rw [List.forall_mem_cons] at hes
    obtain ⟨lowered, hlowered, h⟩ := bind_eq_ok.mp h
    obtain ⟨first, hfirst, h⟩ := bind_eq_ok.mp h
    obtain ⟨others, hothers, h⟩ := bind_eq_ok.mp h
    rw [← Except.ok.inj h, Kept.inLines_append, kept.inLines_flagLast hflag hfirst, hlower e lowered hes.1 hlowered,
      ih hes.2 hothers, Kept.inTrees]

/-- A chain keeps what there is in its conditions. -/
theorem keeps_chain {flag : Flag} (hflag : flag.isSource = false) {es : List Expr} {conditions : List Condition}
    (hes : ∀ e ∈ es, e.NegatesSingly) (h : chain lower flag es = .ok conditions) :
    kept.inLines conditions = kept.inTrees es := by
  fun_induction chain lower flag es generalizing conditions with
  | case1 =>
    rw [← Except.ok.inj h]
    rfl
  | case2 e => exact hlower e conditions (hes e List.mem_cons_self) h
  | case3 e es _ ih =>
    rw [List.forall_mem_cons] at hes
    obtain ⟨lowered, hlowered, h⟩ := bind_eq_ok.mp h
    obtain ⟨first, hfirst, h⟩ := bind_eq_ok.mp h
    obtain ⟨others, hothers, h⟩ := bind_eq_ok.mp h
    rw [← Except.ok.inj h, Kept.inLines_append, kept.inLines_flagLast hflag hfirst, hlower e lowered hes.1 hlowered,
      ih hes.2 hothers, Kept.inTrees]

/-- A counted conjunction keeps what there is in its parts, those that reset it and those that are counted. -/
theorem keeps_countedConjunction {condition : Expr} {conditions : List Condition} (hcondition : condition.NegatesSingly)
    (h : countedConjunction lower condition = .ok conditions) : kept.inLines conditions = kept.inTree condition := by
  obtain ⟨resets, hresets, h⟩ := bind_eq_ok.mp h
  split at h
  · cases h
  · obtain ⟨counted, hcounted, h⟩ := bind_eq_ok.mp h
    have hparts := hcondition.parts .and false
    rw [← Except.ok.inj h, Kept.inLines_append,
      keeps_allFlagged hlower rfl (unwraps_reset?.negatesSingly hparts) hresets,
      keeps_chain hlower rfl (fun part hpart => hparts part (List.mem_filter.mp hpart).1) hcounted,
      kept.inTrees_extract unwraps_reset?, kept.inTrees_parts .and false hcondition]

/-- A counted condition keeps what there is in it, whether it is a conjunction, a disjunction or neither. -/
theorem keeps_counted {condition : Expr} {conditions : List Condition} (hcondition : condition.NegatesSingly)
    (h : counted lower condition = .ok conditions) : kept.inLines conditions = kept.inTree condition := by
  unfold counted at h
  split at h
  · exact keeps_countedConjunction hlower hcondition h
  · split at h
    · rw [keeps_chain hlower rfl (hcondition.parts .or false) h, kept.inTrees_parts .or false hcondition]
    · exact hlower condition conditions hcondition h

/-- A flagged condition keeps what there is in it, flagged as a whole or branch by branch. -/
theorem keeps_flagged {flag : Flag} (hflag : flag.isSource = false) {condition : Expr} {conditions : List Condition}
    (hcondition : condition.NegatesSingly) (h : flagged lower flag condition = .ok conditions) :
    kept.inLines conditions = kept.inTree condition := by
  unfold flagged at h
  split at h
  · rw [keeps_allFlagged hlower hflag (hcondition.parts .or false) h, kept.inTrees_parts .or false hcondition]
  · exact keeps_allFlagged hlower hflag (List.forall_mem_singleton.mpr hcondition) h

/-- A tally keeps what there is in its entries, those that are deducted and those that are counted, and its target. -/
theorem keeps_tally {e : Expr} {target : UInt32} {entries : List Expr} {conditions : List Condition}
    (hentries : ∀ entry ∈ entries, entry.NegatesSingly) (h : tally lower e target entries = .ok conditions) :
    kept.inLines conditions = kept.perCount target + kept.inTrees entries := by
  unfold tally at h
  dsimp only at h
  split at h
  · cases h
  · rename_i last hlast
    obtain ⟨added, hadded, h⟩ := bind_eq_ok.mp h
    obtain ⟨deducted, hdeducted, h⟩ := bind_eq_ok.mp h
    obtain ⟨lowered, hlowered, h⟩ := bind_eq_ok.mp h
    obtain ⟨final, hfinal, h⟩ := bind_eq_ok.mp h
    have hcounted : ∀ entry ∈ entries.filter fun entry => (deduction? entry).isNone, entry.NegatesSingly :=
      fun entry hentry => hentries entry (List.mem_filter.mp hentry).1
    obtain ⟨init, hinit⟩ := List.getLast?_eq_some_iff.mp hlast
    rw [hinit] at hcounted hadded
    rw [List.dropLast_concat] at hadded
    rw [List.forall_mem_append, List.forall_mem_singleton] at hcounted
    have hsum := kept.inTrees_extract unwraps_deduction? entries
    rw [hinit, Kept.inTrees_append, Kept.inTrees_singleton] at hsum
    rw [← Except.ok.inj h, Kept.inLines_append, Kept.inLines_append, keeps_allFlagged hlower rfl hcounted.1 hadded,
      keeps_allFlagged hlower rfl (unwraps_deduction?.negatesSingly hentries) hdeducted, kept.inLines_countLast hfinal,
      hlower last lowered hcounted.2 hlowered, ← hsum]
    omega

/-- A modified condition keeps its count, if it has one, and what there is in it. -/
theorem keeps_modified {mark : Mark} {e : Expr} {modifier : Modifier} {condition : Expr} {conditions : List Condition}
    (hcondition : condition.NegatesSingly) (h : modified lower e modifier condition = .ok conditions) :
    kept.inLines conditions = kept.inTree (.modified mark modifier condition) := by
  rw [kept.inTree_modified]
  cases modifier with
  | repeated count =>
    obtain ⟨lowered, hlowered, h⟩ := bind_eq_ok.mp h
    rw [kept.inLines_countLast h, keeps_counted hlower hcondition hlowered]
    rfl
  | never | «unless» | triggerWhen | measured =>
    rw [keeps_flagged hlower rfl hcondition h]
    exact (Nat.zero_add _).symm
  | deduct => cases h

end Routines

/-- A lowered comparison is one line that is compared, and nothing in it is counted. -/
theorem keeps_comparison {kept : Kept} {e : Expr} {mark : Mark} {op : ComparisonOp} {left right : Expr}
    {conditions : List Condition} (h : comparison e op left right = .ok conditions) :
    kept.inLines conditions = kept.inTree (.comparison mark op left right) := by
  obtain ⟨terms, last, hlast⟩ := comparison_exact h mark
  have hsources : kept.inLines (terms.map SumTerm.source) = 0 := by
    refine List.countP_eq_zero.mpr fun c hc => ?_
    obtain ⟨term, _, rfl⟩ := List.mem_map.mp hc
    cases kept with
    | line => cases hnegative : term.negative <;> simp [Kept.isOn, SumTerm.source, hnegative, Flag.isSource]
    | hits count ne_zero => simp [Kept.isOn, SumTerm.source, ne_zero.symm]
  have hflag : last.flag.isSource = false := by
    rw [hlast.flag_eq]
    rfl
  rw [hlast.conditions_eq, kept.inLines_append, hsources, kept.inLines_plain hflag hlast.hits_eq, Nat.zero_add]
  cases kept with
  | line => rfl
  | hits count ne_zero =>
    obtain ⟨a, ha, hrest⟩ := Option.bind_eq_some_iff.mp (hlast.truth_eq fun _ => 0)
    obtain ⟨b, hb, _⟩ := Option.bind_eq_some_iff.mp hrest
    rw [Kept.inTree, hitCounts_eq]
    simp [children, hitCount?, hitCounts_of_numberIn? ha, hitCounts_of_numberIn? hb, Kept.perLeaf]

/-- One step of lowering keeps what there is in a condition if the steps into smaller conditions do. -/
theorem keeps_step {kept : Kept} {lower : Expr → Except Error (List Condition)} (hlower : LowersKeeping kept lower) :
    LowersKeeping kept (step lower) := by
  intro e conditions he h
  cases e with
  | comparison mark op left right => exact keeps_comparison h
  | boolean mark value =>
    have hleaf : kept.inTree (.boolean mark value) = kept.perLeaf := by cases kept <;> rfl
    rw [← Except.ok.inj h, hleaf]
    cases value <;> exact kept.inLines_plain rfl rfl
  | alwaysTrue mark | alwaysFalse mark =>
    rw [← Except.ok.inj h, kept.inLines_plain rfl rfl]
    cases kept <;> rfl
  | logical mark op left right =>
    cases op with
    | not =>
      obtain rfl := he.left_eq_none
      have hright : right.NegatesSingly := he.part (by simp [children])
      rw [step] at h
      split at h
      · cases h
      · rw [hlower _ conditions (hright.invert_connects rfl rfl) h, kept.inTree_invert hright, kept.inTree_lone]
    | and | or =>
      cases left with
      | none => cases h
      | some left => exact (keeps_chain hlower rfl (he.parts _ false) h).trans (kept.inTrees_parts _ false he)
  | modified mark modifier condition => exact keeps_modified hlower (he.part (by simp [children])) h
  | tally mark target entries =>
    have hentries : ∀ entry ∈ entries, entry.NegatesSingly := fun entry hentry => he.part hentry
    rw [keeps_tally hlower hentries h, kept.inTree_tally]
  | _ => cases h

/-- Every clause keeps what there is in it. -/
theorem keeps_clause (kept : Kept) : LowersKeeping kept clause := by
  have hwithin : ∀ bound, LowersKeeping kept (clauseWithin bound) := by
    intro bound
    induction bound with
    | zero =>
      intro e conditions _ h
      cases h
    | succ bound ih => exact keeps_step ih
  exact fun e conditions he h => hwithin _ e conditions he h

/-- The groups of alternatives keep what there is in their branches. -/
theorem keeps_alternatives {kept : Kept} {branches : List Expr} {groups : List (List Condition)}
    (hbranches : ∀ branch ∈ branches, branch.NegatesSingly) (h : alternatives branches = .ok groups) :
    kept.inLines groups.flatten = kept.inTrees branches := by
  induction branches generalizing groups with
  | nil =>
    rw [← Except.ok.inj h]
    rfl
  | cons branch branches ih =>
    rw [List.forall_mem_cons] at hbranches
    obtain ⟨group, hgroup, h⟩ := bind_eq_ok.mp h
    obtain ⟨others, hothers, h⟩ := bind_eq_ok.mp h
    rw [← Except.ok.inj h, List.flatten_cons, Kept.inLines_append,
      keeps_all (keeps_clause kept) (hbranches.1.parts .and false) hgroup, kept.inTrees_parts .and false hbranches.1,
      ih hbranches.2 hothers, Kept.inTrees]

end Lowering

namespace Expr

/-- Whether the only clause of a condition is a disjunction. -/
def isOneDisjunction (e : Expr) : Bool :=
  match e.parts .and false with
  | [clause] => clause.joinsWith .or
  | _ => false

/-- No clause is left for the core exactly if the only one is a disjunction. -/
theorem isOneDisjunction_iff {e : Expr} : e.isOneDisjunction = true ↔ e.coreClauses = [] := by
  have hne : e.parts .and false ≠ [] := parts_ne_nil .all false e
  unfold isOneDisjunction coreClauses
  cases hparts : e.parts .and false with
  | nil => exact absurd hparts hne
  | cons clause clauses =>
    cases clauses with
    | nil => cases hor : clause.joinsWith .or <;> simp [hor]
    | cons clause' clauses => cases hor : clause.joinsWith .or <;> cases hor' : clause'.joinsWith .or <;> simp [hor, hor']

end Expr

namespace Trigger

open Lowering

/-- The core of a trigger is filled if the only clause of its condition is a disjunction. -/
theorem core_of_isOneDisjunction {e : Expr} {trigger : Trigger} (h : ofExpr e = .ok trigger)
    (hone : e.isOneDisjunction = true) : trigger.core = [.always] := by
  obtain ⟨core, hcore, hrest⟩ := ofExpr_eq_ok h
  rw [isOneDisjunction_iff.mp hone] at hcore hrest
  obtain rfl := Except.ok.inj hcore
  rcases hrest with ⟨_, hclauses, _⟩ | ⟨_, _, _, _, _, _, _, _, rfl⟩
  · exact absurd hclauses.symm (parts_ne_nil .all false e)
  · rfl

/-- The core keeps what there is in its clauses; if there are none, it is filled with a line. -/
theorem keeps_core (kept : Kept) {e : Expr} {core : List Condition} (he : ∀ clause ∈ e.coreClauses, clause.NegatesSingly)
    (h : all clause e.coreClauses = .ok core) :
    kept.inLines (if core.isEmpty then [.always] else core) =
      kept.inTrees e.coreClauses + if e.isOneDisjunction then kept.perLeaf else 0 := by
  by_cases hclauses : e.coreClauses = []
  · rw [hclauses] at h
    obtain rfl := Except.ok.inj h
    rw [hclauses, if_pos (isOneDisjunction_iff.mpr hclauses)]
    exact (kept.inLines_plain rfl rfl).trans (Nat.zero_add _).symm
  · have hne : ¬ core.isEmpty := fun hempty =>
      (closed_all closed_clause hclauses h).isSoundGroup.ne_nil (List.isEmpty_iff.mp hempty)
    rw [if_neg hne, if_neg fun hone => hclauses (isOneDisjunction_iff.mp hone), keeps_all (keeps_clause kept) he h,
      Nat.add_zero]

/-- A trigger keeps what there is in its condition; a core that is filled is a line more. -/
theorem keeps_ofExpr (kept : Kept) {e : Expr} {trigger : Trigger} (he : e.NegatesSingly) (h : ofExpr e = .ok trigger) :
    kept.inLines trigger.groups.flatten = kept.inTree e + if e.isOneDisjunction then kept.perLeaf else 0 := by
  obtain ⟨core, hcore, hrest⟩ := ofExpr_eq_ok h
  have hclauses := he.parts .and false
  have htotal := kept.inTrees_parts .and false he
  rcases hrest with ⟨_, hall, rfl⟩ | ⟨before, after, disjunction, groups, hparts, hsplit, _, hgroups, rfl⟩
  · have hne : e.coreClauses ≠ [] := by
      rw [hall]
      exact parts_ne_nil .all false e
    rw [hall] at hcore
    rw [if_neg fun hone => hne (isOneDisjunction_iff.mp hone), Trigger.groups, List.flatten_cons, List.flatten_nil,
      List.append_nil, keeps_all (keeps_clause kept) hclauses hcore, htotal, Nat.add_zero]
  · rw [hparts, List.forall_mem_append, List.forall_mem_cons] at hclauses
    obtain ⟨hbefore, hdisjunction, hafter⟩ := hclauses
    have hcoreClauses : ∀ clause ∈ e.coreClauses, clause.NegatesSingly := by
      rw [hsplit]
      exact List.forall_mem_append.mpr ⟨hbefore, hafter⟩
    have hbranches : kept.inLines groups.flatten = kept.inTree disjunction :=
      (keeps_alternatives (hdisjunction.parts .or false) hgroups).trans (kept.inTrees_parts .or false hdisjunction)
    rw [hparts, Kept.inTrees_append, Kept.inTrees] at htotal
    rw [Trigger.groups, List.flatten_cons, Kept.inLines_append, hbranches, keeps_core kept hcoreClauses hcore, hsplit,
      Kept.inTrees_append, ← htotal]
    omega

/-- Lowering loses and doubles nothing: the lines of a trigger that are compared are as many as the comparisons and fixed
truths of its condition, with one more if the core had to be filled, and the hit counts of its lines are those of the
repeated conditions and tallies. -/
theorem lowering_keeps_lines_and_hits {e : Expr} {trigger : Trigger} (he : e.NegatesSingly) (h : ofExpr e = .ok trigger) :
    (trigger.groups.flatten.filter fun line => !line.flag.isSource).length =
        e.conditionLeaves.length + (if e.isOneDisjunction then 1 else 0) ∧
      (e.isOneDisjunction = true → trigger.core = [.always]) ∧
      ((trigger.groups.flatten.map (·.hits)).filter (· ≠ 0)).Perm (e.hitCounts.filter (· ≠ 0)) := by
  refine ⟨?_, core_of_isOneDisjunction h, List.perm_iff_count.mpr fun count => ?_⟩
  · rw [← List.countP_eq_length_filter]
    exact keeps_ofExpr .line he h
  · by_cases hzero : count = 0
    · subst hzero
      rw [List.count_eq_zero_of_not_mem (by simp), List.count_eq_zero_of_not_mem (by simp)]
    · have hkept := keeps_ofExpr (.hits count hzero) he h
      rw [List.count_filter (by simpa using hzero), List.count_filter (by simpa using hzero),
        Kept.count_map_hits count hzero, hkept, Kept.perLeaf, ite_self, Nat.add_zero, Kept.inTree]

/-- Twice negated, the sum that is counted with a reset and taken off a tally of itself. -/
def negatedCounts : Expr :=
  .logical {} .not none (.logical {} .not none countedSum)

/-- A negated condition with counts, all of it in alternatives. -/
theorem lowering_keeps_lines_and_hits_negatedCounts :
    ∃ trigger, ofExpr negatedCounts = .ok trigger ∧ negatedCounts.NegatesSingly ∧
      negatedCounts.isOneDisjunction = true ∧ negatedCounts.conditionLeaves.length = 5 ∧
      negatedCounts.hitCounts = [5, 3] ∧
      (trigger.groups.flatten.filter fun line => !line.flag.isSource).length = 5 + 1 ∧ trigger.core = [.always] ∧
      ((trigger.groups.flatten.map (·.hits)).filter (· ≠ 0)).Perm [5, 3] := by
  have hsingly : negatedCounts.NegatesSingly := by decide
  obtain ⟨hlines, hcore, hhits⟩ := lowering_keeps_lines_and_hits (e := negatedCounts) hsingly rfl
  exact ⟨_, rfl, hsingly, rfl, rfl, rfl, hlines, hcore rfl, hhits⟩

end Trigger

end TriggerScript
