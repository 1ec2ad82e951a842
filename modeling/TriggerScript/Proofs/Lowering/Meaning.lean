import TriggerScript.Proofs.Lowering.Chains

/-!
# What a lowered trigger means

A trigger works through the clauses of its core and through the parts of its alternatives one by one, each of them as a
chain without brackets. The trigger of a condition has the truth of the condition in every state if each of these chains
is nested to the left only (`Expr.isLeftNested`). If the leaves of the condition can be true and false independently
of each other, then it has it in no other case.
-/

namespace TriggerScript

namespace Expr

/-- The value of a trigger, given the values of its chains. -/
def splitValue (value : Expr → Bool) (e : Expr) : Bool :=
  e.coreClauses.all value && (e.branches.isEmpty || e.branches.any (·.all value))

/-- Whether the chains of a condition are nested to the left only. -/
def isLeftNested (e : Expr) : Bool :=
  e.chains.all fun chain => (chain.formula false).isLeftNested

/-- The comparisons and truth values that the chains of a condition are built from. -/
def chainLeaves (e : Expr) : List Expr :=
  e.chains.flatMap fun chain => (chain.formula false).leaves

/-- The leaves of a condition can take any truth values together. -/
def HasIndependentLeaves (e : Expr) : Prop :=
  e.chainLeaves.Nodup ∧ ∀ ν : Expr → Bool, ∃ m, ∀ x ∈ e.chainLeaves, x.truthIn? m = some (ν x)

/-- A chain under a valuation, read from left to right. -/
def readUnder (ν : Expr → Bool) (chain : Expr) : Bool :=
  ((chain.formula false).map ν).reading .start

/-- The truth of a chain under a valuation. -/
def truthUnder (ν : Expr → Bool) (chain : Expr) : Bool :=
  ((chain.formula false).map ν).truth

theorem splitValue_eq_true {value : Expr → Bool} {e : Expr} :
    e.splitValue value = true ↔
      (∀ chain ∈ e.coreClauses, value chain) ∧
        (e.branches = [] ∨ ∃ branch ∈ e.branches, ∀ chain ∈ branch, value chain) := by
  simp [splitValue]

/-- Only the values of the chains matter for a trigger. -/
theorem splitValue_congr {value value' : Expr → Bool} {e : Expr} (h : ∀ chain ∈ e.chains, value chain = value' chain) :
    e.splitValue value = e.splitValue value' := by
  have hcore : ∀ chain ∈ e.coreClauses, value chain = value' chain :=
    fun chain hchain => h chain (List.mem_append_left _ hchain)
  have hbranch : ∀ branch ∈ e.branches, ∀ chain ∈ branch, value chain = value' chain :=
    fun branch hb chain hchain => h chain (List.mem_append_right _ (List.mem_flatten.mpr ⟨branch, hb, hchain⟩))
  rw [Bool.eq_iff_iff, splitValue_eq_true, splitValue_eq_true]
  refine and_congr ?_ (or_congr Iff.rfl ?_)
  · exact forall₂_congr fun chain hchain => by rw [hcore chain hchain]
  · refine exists_congr fun branch => and_congr_right fun hb => ?_
    exact forall₂_congr fun chain hchain => by rw [hbranch branch hb chain hchain]

/-- Splitting a condition into clauses and branches keeps its truth. -/
theorem truth_eq_splitValue (ν : Expr → Bool) (e : Expr) :
    truthUnder ν e = e.splitValue (truthUnder ν) := by
  unfold truthUnder
  rw [Bool.eq_iff_iff, splitValue_eq_true, truth_formula_all, List.all_eq_true]
  rcases clauses_split e with ⟨_, hbranches, hcore⟩ | ⟨before, disjunction, after, _, hclauses, hcore, hbranches⟩
  · simp [hbranches, hcore]
  · have hdisjunction : ((disjunction.formula false).map ν).truth = true ↔
        ∃ branch ∈ e.branches, ∀ chain ∈ branch, ((chain.formula false).map ν).truth = true := by
      rw [truth_formula_any, List.any_eq_true, hbranches]
      constructor
      · rintro ⟨branch, hbranch, htrue⟩
        rw [truth_formula_all, List.all_eq_true] at htrue
        exact ⟨_, List.mem_map_of_mem hbranch, htrue⟩
      · rintro ⟨_, hparts, htrue⟩
        obtain ⟨branch, hbranch, rfl⟩ := List.mem_map.mp hparts
        exact ⟨branch, hbranch, by rwa [truth_formula_all, List.all_eq_true]⟩
    have hne : e.branches ≠ [] := by
      rw [hbranches, ne_eq, List.map_eq_nil_iff]
      exact parts_ne_nil .any false disjunction
    simp only [hclauses, hcore, ← hdisjunction, hne, false_or, List.forall_mem_append, List.forall_mem_cons]
    exact ⟨fun ⟨hb, hd, ha⟩ => ⟨⟨hb, ha⟩, hd⟩, fun ⟨⟨hb, ha⟩, hd⟩ => ⟨hb, hd, ha⟩⟩

/-- The leaves of a condition are those of its chains. -/
theorem mem_leaves_iff {e x : Expr} : x ∈ (e.formula false).leaves ↔ x ∈ e.chainLeaves := by
  have hclauses : (e.formula false).leaves = (e.parts .and false).flatMap fun part => (part.formula false).leaves :=
    leaves_formula .all false e
  rw [hclauses]
  unfold chainLeaves chains
  rcases clauses_split e with ⟨_, hbranches, hcore⟩ | ⟨before, disjunction, after, _, heq, hcore, hbranches⟩
  · rw [hbranches, hcore, List.flatten_nil, List.append_nil]
  · have hdisjunction : (disjunction.formula false).leaves =
        e.branches.flatten.flatMap fun part => (part.formula false).leaves := by
      rw [hbranches, ← List.flatMap_def, List.flatMap_assoc, leaves_formula .any]
      refine congrArg (List.flatMap · _) (funext fun branch => ?_)
      exact leaves_formula .all false branch
    rw [heq, hcore, List.flatMap_append, List.flatMap_append, List.flatMap_append, List.flatMap_cons, hdisjunction]
    simp only [List.mem_append]
    exact ⟨fun h => by rcases h with h | h | h <;> simp [h], fun h => by rcases h with (h | h) | h <;> simp [h]⟩

/-! ### Values that tell a reading from the truth -/

/-- A chain whose leaves all have one value has that value, however it is read. -/
theorem under_of_forall {ν : Expr → Bool} {value : Bool} {chain : Expr}
    (h : ∀ x ∈ (chain.formula false).leaves, ν x = value) :
    readUnder ν chain = value ∧ truthUnder ν chain = value := by
  have hfill : (chain.formula false).map ν = (chain.formula false).fill value := Formula.map_congr h
  rw [readUnder, truthUnder, hfill]
  exact ⟨Formula.reading_fill_start value _, Formula.truth_fill value _⟩

/-- If no leaf stands twice, a chain that is not nested to the left can be misread while chains beside it are true and
others are false. -/
theorem exists_misreading {chain : Expr} {trues falses : List Expr}
    (hnodup : ((chain :: (trues ++ falses)).flatMap fun chain => (chain.formula false).leaves).Nodup)
    (hchain : (chain.formula false).isLeftNested = false) :
    ∃ ν, readUnder ν chain ≠ truthUnder ν chain ∧ (∀ x ∈ trues, readUnder ν x = true ∧ truthUnder ν x = true) ∧
      ∀ x ∈ falses, readUnder ν x = false ∧ truthUnder ν x = false := by
  classical
  rw [List.flatMap_cons, List.flatMap_append] at hnodup
  obtain ⟨hleaves, hothers, hfresh⟩ := List.nodup_append.mp hnodup
  obtain ⟨_, _, hapart⟩ := List.nodup_append.mp hothers
  obtain ⟨g, hshape, hmisread⟩ := Formula.exists_misread hchain
  obtain ⟨ν, hν⟩ := Formula.exists_valuation hleaves hshape
  let μ : Expr → Bool := fun x =>
    if x ∈ (chain.formula false).leaves then ν x
    else if x ∈ falses.flatMap (fun chain => (chain.formula false).leaves) then false else true
  have hμ : (chain.formula false).map μ = g := by
    rw [← hν]
    exact Formula.map_congr fun x hx => if_pos hx
  refine ⟨μ, ?_, ?_, ?_⟩
  · rw [readUnder, truthUnder, hμ]
    exact hmisread
  · intro x hx
    refine under_of_forall fun y hy => ?_
    have hmem : y ∈ trues.flatMap fun chain => (chain.formula false).leaves := List.mem_flatMap.mpr ⟨x, hx, hy⟩
    have hnot : y ∉ (chain.formula false).leaves := fun h => hfresh y h y (List.mem_append_left _ hmem) rfl
    have hnot' : y ∉ falses.flatMap fun chain => (chain.formula false).leaves := fun h => hapart y hmem y h rfl
    simp only [μ, if_neg hnot, if_neg hnot']
  · intro x hx
    refine under_of_forall fun y hy => ?_
    have hmem : y ∈ falses.flatMap fun chain => (chain.formula false).leaves := List.mem_flatMap.mpr ⟨x, hx, hy⟩
    have hnot : y ∉ (chain.formula false).leaves := fun h => hfresh y h y (List.mem_append_right _ hmem) rfl
    simp only [μ, if_neg hnot, if_pos hmem]

/-- With everything else true, a trigger has the value of a clause of its core. -/
theorem splitValue_core {value : Expr → Bool} {e chain : Expr} {before after : List Expr}
    (hcore : e.coreClauses = before ++ chain :: after)
    (htrue : ∀ x ∈ before ++ after ++ e.branches.flatten, value x = true) : e.splitValue value = value chain := by
  simp only [List.mem_append] at htrue
  rw [Bool.eq_iff_iff, splitValue_eq_true, hcore]
  constructor
  · rintro ⟨hall, _⟩
    exact hall chain (by simp)
  · intro hchain
    refine ⟨fun x hx => ?_, ?_⟩
    · rcases List.mem_append.mp hx with hx | hx
      · exact htrue x (Or.inl (Or.inl hx))
      · rcases List.mem_cons.mp hx with rfl | hx
        · exact hchain
        · exact htrue x (Or.inl (Or.inr hx))
    · by_cases hempty : e.branches = []
      · exact Or.inl hempty
      · obtain ⟨branch, hbranch⟩ := List.exists_mem_of_ne_nil _ hempty
        exact Or.inr ⟨branch, hbranch, fun x hx => htrue x (Or.inr (List.mem_flatten.mpr ⟨branch, hbranch, hx⟩))⟩

/-- With the core and the rest of a branch true and all other branches false, a trigger has the value of a part of the
branch. -/
theorem splitValue_branch {value : Expr → Bool} {e chain : Expr} {before after : List (List Expr)}
    {first last : List Expr} (hbranches : e.branches = before ++ (first ++ chain :: last) :: after)
    (htrue : ∀ x ∈ e.coreClauses ++ (first ++ last), value x = true)
    (hfalse : ∀ x ∈ before.flatten ++ after.flatten, value x = false) : e.splitValue value = value chain := by
  simp only [List.mem_append] at htrue hfalse
  rw [Bool.eq_iff_iff, splitValue_eq_true]
  constructor
  · rintro ⟨_, hempty | ⟨branch, hbranch, hall⟩⟩
    · rw [hbranches] at hempty
      exact absurd hempty (by simp)
    · obtain ⟨x, hx⟩ := List.exists_mem_of_ne_nil _ (ne_nil_of_mem_branches hbranch)
      rw [hbranches] at hbranch
      rcases List.mem_append.mp hbranch with hbranch | hbranch
      · have hx' := hfalse x (Or.inl (List.mem_flatten.mpr ⟨branch, hbranch, hx⟩))
        exact absurd (hall x hx) (by simp [hx'])
      · rcases List.mem_cons.mp hbranch with rfl | hbranch
        · exact hall chain (by simp)
        · have hx' := hfalse x (Or.inr (List.mem_flatten.mpr ⟨branch, hbranch, hx⟩))
          exact absurd (hall x hx) (by simp [hx'])
  · intro hchain
    refine ⟨fun x hx => htrue x (Or.inl hx), Or.inr ⟨first ++ chain :: last, by simp [hbranches], fun x hx => ?_⟩⟩
    rcases List.mem_append.mp hx with hx | hx
    · exact htrue x (Or.inr (Or.inl hx))
    · rcases List.mem_cons.mp hx with rfl | hx
      · exact hchain
      · exact htrue x (Or.inr (Or.inr hx))

/-- If no leaf stands twice, a condition with a chain that is not nested to the left has values of its leaves for which
its trigger is wrong. -/
theorem exists_split_misreading {e : Expr} (hnodup : e.chainLeaves.Nodup) (he : e.isLeftNested = false) :
    ∃ ν, e.splitValue (readUnder ν) ≠ e.splitValue (truthUnder ν) := by
  obtain ⟨chain, hchain, hnested⟩ := List.all_eq_false.mp he
  rw [Bool.not_eq_true] at hnested
  rcases List.mem_append.mp hchain with hcore | hbranch
  · obtain ⟨before, after, hcore⟩ := List.append_of_mem hcore
    have hperm : e.chains.Perm (chain :: ((before ++ after ++ e.branches.flatten) ++ [])) := by
      rw [chains, hcore, List.append_nil, List.append_assoc, List.append_assoc, List.cons_append]
      exact List.perm_middle
    obtain ⟨ν, hν, htrue, _⟩ := exists_misreading ((hperm.flatMap_right _).nodup_iff.mp hnodup) hnested
    refine ⟨ν, ?_⟩
    rwa [splitValue_core hcore fun x hx => (htrue x hx).1, splitValue_core hcore fun x hx => (htrue x hx).2]
  · obtain ⟨branch, hbranch, hpart⟩ := List.mem_flatten.mp hbranch
    obtain ⟨before, after, hbranches⟩ := List.append_of_mem hbranch
    obtain ⟨first, last, rfl⟩ := List.append_of_mem hpart
    have hperm : e.chains.Perm
        (chain :: ((e.coreClauses ++ (first ++ last)) ++ (before.flatten ++ after.flatten))) := by
      have hmiddle : e.chains =
          (e.coreClauses ++ before.flatten ++ first) ++ chain :: (last ++ after.flatten) := by
        rw [chains, hbranches]
        simp
      have hmoved : e.coreClauses ++ before.flatten ++ first ++ (last ++ after.flatten) =
          e.coreClauses ++ (before.flatten ++ (first ++ last) ++ after.flatten) := by simp
      have hgoal : e.coreClauses ++ (first ++ last) ++ (before.flatten ++ after.flatten) =
          e.coreClauses ++ (first ++ last ++ before.flatten ++ after.flatten) := by simp
      rw [hmiddle, hgoal]
      refine List.perm_middle.trans (List.Perm.cons chain ?_)
      rw [hmoved]
      exact (List.perm_append_comm.append_right _).append_left _
    obtain ⟨ν, hν, htrue, hfalse⟩ := exists_misreading ((hperm.flatMap_right _).nodup_iff.mp hnodup) hnested
    refine ⟨ν, ?_⟩
    rwa [splitValue_branch hbranches (fun x hx => (htrue x hx).1) fun x hx => (hfalse x hx).1,
      splitValue_branch hbranches (fun x hx => (htrue x hx).2) fun x hx => (hfalse x hx).2]

end Expr

namespace Lowering

variable {m : MemoryState}

/-- Conditions that are lowered one after the other hold if each of them does. -/
theorem groupTruthIn_all {lower : Expr → Except Error (List Condition)} {es : List Expr} {conditions : List Condition}
    (hes : ∀ e ∈ es, ∀ L, lower e = .ok L → Computes m L (chainValue m e)) (h : all lower es = .ok conditions) :
    groupTruthIn? m conditions = some (es.all (chainValue m · .start)) := by
  induction es generalizing conditions with
  | nil =>
    rw [← Except.ok.inj h]
    rfl
  | cons e es ih =>
    obtain ⟨first, hfirst, h⟩ := bind_eq_ok.mp h
    obtain ⟨others, hothers, h⟩ := bind_eq_ok.mp h
    rw [← Except.ok.inj h, groupTruthIn?, (hes e List.mem_cons_self first hfirst).groupFrom_append, ← groupTruthIn?,
      ih (fun e' he' => hes e' (List.mem_cons_of_mem e he')) hothers]
    rfl

/-- The alternative groups hold if all parts of their branches do. -/
theorem groupTruthIn_alternatives {branches : List Expr} {groups : List (List Condition)}
    (hparts : ∀ branch ∈ branches, ∀ part ∈ branch.parts .and false, ∀ L, clause part = .ok L →
      Computes m L (chainValue m part)) (h : alternatives branches = .ok groups) :
    groups.mapM (groupTruthIn? m) =
      some (branches.map fun branch => (branch.parts .and false).all (chainValue m · .start)) := by
  induction branches generalizing groups with
  | nil =>
    rw [← Except.ok.inj h]
    rfl
  | cons branch branches ih =>
    obtain ⟨group, hgroup, h⟩ := bind_eq_ok.mp h
    obtain ⟨others, hothers, h⟩ := bind_eq_ok.mp h
    rw [← Except.ok.inj h, List.mapM_cons, groupTruthIn_all (hparts branch List.mem_cons_self) hgroup,
      ih (fun b hb => hparts b (List.mem_cons_of_mem branch hb)) hothers]
    rfl

end Lowering

open Lowering TriggerScript.Expr

namespace Trigger

/-- A trigger has the value of its condition, split into chains that are read from left to right. -/
theorem truthIn_ofExpr {e : Expr} {trigger : Trigger} (h : ofExpr e = .ok trigger) (m : MemoryState)
    (hchains : ∀ chain ∈ e.chains, ∀ L, clause chain = .ok L → Computes m L (chainValue m chain)) :
    trigger.truthIn? m = some (e.splitValue (chainValue m · .start)) := by
  obtain ⟨core, hcore, hrest⟩ := ofExpr_eq_ok h
  have hcoreTruth := groupTruthIn_all (fun chain hchain => hchains chain (List.mem_append_left _ hchain)) hcore
  unfold truthIn? splitValue
  rcases hrest with ⟨hbranches, _, rfl⟩ | ⟨_, _, disjunction, groups, _, _, hbranches, hgroups, rfl⟩
  · simp [hcoreTruth, hbranches]
  · have hparts : ∀ branch ∈ disjunction.parts .or false, ∀ part ∈ branch.parts .and false, part ∈ e.chains := by
      intro branch hbranch part hpart
      refine List.mem_append_right _ (List.mem_flatten.mpr ⟨_, ?_, hpart⟩)
      rw [hbranches]
      exact List.mem_map_of_mem hbranch
    have hgroupsTruth := groupTruthIn_alternatives (fun b hb part hpart => hchains part (hparts b hb part hpart)) hgroups
    have hfilled : groupTruthIn? m (if core.isEmpty then [.always] else core) = groupTruthIn? m core := by
      cases core <;> rfl
    have hne : (disjunction.parts .or false).isEmpty = false :=
      List.isEmpty_eq_false_iff.mpr (parts_ne_nil .any false disjunction)
    rw [hfilled, hcoreTruth, hgroupsTruth, hbranches]
    simp only [Option.bind_eq_bind, Option.bind_some, Option.pure_def, List.isEmpty_map, hne, List.any_map,
      Function.comp_def, id_eq, Bool.false_or]

/-- The trigger of an unmodified condition and the condition itself have a truth in every state: that of the chains read
from left to right, and that of the formulas of the chains. -/
theorem truthIn_of_isUnmodified {e : Expr} {trigger : Trigger} (he : e.isUnmodified) (h : ofExpr e = .ok trigger)
    (m : MemoryState) :
    trigger.truthIn? m = some (e.splitValue (readUnder (holdsIn m))) ∧
      e.truthIn? m = some (e.splitValue (truthUnder (holdsIn m))) := by
  have hbasic := isBasic_of_mem_leaves he false
  have hfaithful : ∀ chain ∈ e.chains, ∀ L, clause chain = .ok L → Faithful chain L := by
    intro chain hchain L hL
    refine faithful_clauseWithin _ (fun x hx => hbasic x ?_) hL
    exact mem_leaves_iff.mpr (List.mem_flatMap.mpr ⟨chain, hchain, hx⟩)
  refine ⟨truthIn_ofExpr h m fun chain hchain L hL => (hfaithful chain hchain L hL m).1, ?_⟩
  rw [truthIn_formula m he false, Bool.false_xor, ← truth_eq_splitValue]
  · rfl
  intro x hx
  obtain ⟨chain, hchain, hx⟩ := List.mem_flatMap.mp (mem_leaves_iff.mp hx)
  obtain ⟨L, hL⟩ := chains_eq_ok h chain hchain
  exact (hfaithful chain hchain L hL m).2 x hx

/-- The trigger of an unmodified condition has the truth of the condition in every state if the chains of the condition
are nested to the left only; and if its leaves are independent of each other, in no other case. -/
theorem truthIn_eq_iff_isLeftNested {e : Expr} {trigger : Trigger} (he : e.isUnmodified) (h : ofExpr e = .ok trigger) :
    (e.isLeftNested → ∀ m, ∃ value, e.truthIn? m = some value ∧ trigger.truthIn? m = some value) ∧
      (e.HasIndependentLeaves → ((∀ m, trigger.truthIn? m = e.truthIn? m) ↔ e.isLeftNested)) := by
  have hnested : e.isLeftNested → ∀ m, ∃ value, e.truthIn? m = some value ∧ trigger.truthIn? m = some value := by
    intro hnested m
    obtain ⟨htrigger, hcondition⟩ := truthIn_of_isUnmodified he h m
    refine ⟨_, hcondition, ?_⟩
    rw [htrigger]
    refine congrArg some (splitValue_congr fun chain hchain => Formula.reading_of_isLeftNested ?_)
    rw [Formula.isLeftNested_map]
    exact List.all_eq_true.mp hnested chain hchain
  refine ⟨hnested, fun hindependent => ⟨fun hsame => ?_, fun hleft m => ?_⟩⟩
  · refine Bool.of_not_eq_false fun hleft => ?_
    obtain ⟨ν, hν⟩ := exists_split_misreading hindependent.1 hleft
    obtain ⟨m, hm⟩ := hindependent.2 ν
    obtain ⟨htrigger, hcondition⟩ := truthIn_of_isUnmodified he h m
    have hvalues : ∀ chain ∈ e.chains, (chain.formula false).map (holdsIn m) = (chain.formula false).map ν := by
      intro chain hchain
      refine Formula.map_congr fun x hx => ?_
      rw [holdsIn, hm x (List.mem_flatMap.mpr ⟨chain, hchain, hx⟩), Option.getD_some]
    apply hν
    calc e.splitValue (readUnder ν)
      _ = e.splitValue (readUnder (holdsIn m)) :=
        splitValue_congr fun chain hchain => congrArg (Formula.reading .start) (hvalues chain hchain).symm
      _ = e.splitValue (truthUnder (holdsIn m)) := Option.some.inj ((htrigger.symm.trans (hsame m)).trans hcondition)
      _ = e.splitValue (truthUnder ν) :=
        splitValue_congr fun chain hchain => congrArg Formula.truth (hvalues chain hchain)
  · obtain ⟨value, hcondition, htrigger⟩ := hnested hleft m
    rw [htrigger, hcondition]

end Trigger

namespace Expr

/-- The condition that a byte of memory is one. -/
def byteIsOne (address : UInt32) : Expr :=
  .comparison {} .equal (.memory {} (.ofSize .byte address)) (.integer {} 1)

/-- The condition that two conditions are joined to by a connective. -/
def joined (op : LogicalOp) (left right : Expr) : Expr :=
  .logical {} op (some left) right

/-- Comparisons of different bytes are independent of each other. -/
theorem hasIndependentLeaves_of_bytes {e : Expr} {addresses : List UInt32} (he : e.chainLeaves = addresses.map byteIsOne)
    (hnodup : addresses.Nodup) : e.HasIndependentLeaves := by
  rw [HasIndependentLeaves, he]
  constructor
  · refine List.Pairwise.map byteIsOne (fun a b hab heq => hab ?_) hnodup
    simpa [byteIsOne, MemoryRead.ofSize] using heq
  · intro ν
    refine ⟨fun read => if ν (byteIsOne read.address) then 1 else 0, fun x hx => ?_⟩
    obtain ⟨address, _, rfl⟩ := List.mem_map.mp hx
    change some (ComparisonOp.equal.relates ((if ν (byteIsOne address) then 1 else 0 : Nat) : Int) 1) = _
    cases ν (byteIsOne address) <;> rfl

/-- Two bytes as alternatives, and in the core a chain that is nested to the left. -/
def nestedLeft : Expr :=
  joined .and (joined .or (byteIsOne 1) (byteIsOne 2))
    (joined .or (joined .and (byteIsOne 4) (byteIsOne 5)) (byteIsOne 3))

/-- The same condition with the chain in the core nested to the right. -/
def nestedRight : Expr :=
  joined .and (joined .or (byteIsOne 1) (byteIsOne 2))
    (joined .or (byteIsOne 3) (joined .and (byteIsOne 4) (byteIsOne 5)))

end Expr

namespace Trigger

/-- The trigger of two alternative bytes and a chain of three bytes that are linked by two flags. -/
def ofChain (link link' : Flag) (a b c : UInt32) : Trigger :=
  let byte (address : UInt32) (flag : Flag) : Condition :=
    { flag, left := .memory (.ofSize .byte address), right? := some (.compare .equal, .number 1) }
  { core := [byte a link, byte b link', byte c .plain], alternatives := [[byte 1 .plain], [byte 2 .plain]] }

theorem truthIn_eq_iff_isLeftNested_bytes :
    (nestedLeft.isUnmodified ∧ ofExpr nestedLeft = .ok (ofChain .andNext .orNext 4 5 3) ∧ nestedLeft.isLeftNested ∧
      ∀ m, ∃ value, nestedLeft.truthIn? m = some value ∧ (ofChain .andNext .orNext 4 5 3).truthIn? m = some value) ∧
    (nestedRight.isUnmodified ∧ ofExpr nestedRight = .ok (ofChain .orNext .andNext 3 4 5) ∧
      nestedRight.HasIndependentLeaves ∧
      ¬ ∀ m, (ofChain .orNext .andNext 3 4 5).truthIn? m = nestedRight.truthIn? m) := by
  have hindependent : nestedRight.HasIndependentLeaves :=
    hasIndependentLeaves_of_bytes (show nestedRight.chainLeaves = [3, 4, 5, 1, 2].map byteIsOne from rfl) (by decide)
  refine ⟨⟨rfl, rfl, rfl, ?_⟩, ⟨rfl, rfl, hindependent, ?_⟩⟩
  · exact (truthIn_eq_iff_isLeftNested (e := nestedLeft) rfl rfl).1 rfl
  · intro hsame
    have hnested := ((truthIn_eq_iff_isLeftNested (e := nestedRight) rfl rfl).2 hindependent).mp hsame
    exact absurd hnested (by decide)

/-- A chain that is nested to the right loses its brackets: with the first and the third byte one and all others zero, the
condition is true and its trigger does not hold. -/
theorem ofExpr_loses_brackets :
    ∃ m, ofExpr nestedRight = .ok (ofChain .orNext .andNext 3 4 5) ∧ nestedRight.truthIn? m = some true ∧
      (ofChain .orNext .andNext 3 4 5).truthIn? m = some false :=
  ⟨fun read => if read.address = 1 ∨ read.address = 3 then 1 else 0, rfl, by decide, by decide⟩

end Trigger

end TriggerScript
