import TriggerScript.Proofs.Lowering.Comparison
import TriggerScript.Proofs.Lowering.Steps
import TriggerScript.Proofs.Wire.Trigger

/-!
# Lowered triggers are sound

Whatever a condition is built from, every group of its trigger is sound: there is a condition in it, all of them have what
their flags need, and the last one waits for no other. The lowering routines keep this for the runs of conditions that they
pass on: each of them may put a flag or a hit count on the last condition of a run, and none leaves a link there.
-/

namespace TriggerScript

/-- Whether a flag links a condition to the next one. -/
def Flag.isLink : Flag → Bool
  | .addSource | .subSource | .addHits | .subHits | .andNext | .orNext | .resetNextIf => true
  | .plain | .pauseIf | .resetIf | .measured | .trigger => false

/-- Whether a condition has what its flag needs: a source is not counted, and every other condition compares. -/
def Condition.isSound (condition : Condition) : Bool :=
  if condition.flag.isSource then condition.hits = 0 else condition.right?.any (·.1.isComparison)

/-- A group that can be worked through to its end. -/
structure IsSoundGroup (group : List Condition) : Prop where
  /-- There is a condition. -/
  ne_nil : group ≠ []
  /-- Every condition but a source has a comparison. -/
  comparison : ∀ c ∈ group, c.flag.isSource = false → ∃ op operand, c.right? = some (.compare op, operand)
  /-- No source is counted. -/
  sourceHits : ∀ c ∈ group, c.flag.isSource → c.hits = 0
  /-- The last condition is not linked to a next one. -/
  closed : ∀ last ∈ group.getLast?,
    last.flag ∉ [.addSource, .subSource, .addHits, .subHits, .andNext, .orNext, .resetNextIf]

namespace Lowering

/-- A run of conditions that have what their flags need, the last one without a link. -/
def Closed (conditions : List Condition) : Prop :=
  (∀ c ∈ conditions, c.isSound) ∧ ∃ init last, conditions = init ++ [last] ∧ last.flag.isLink = false

/-- A run is closed exactly if its conditions are sound and the last one links to nothing. -/
theorem closed_concat {init : List Condition} {last : Condition} :
    Closed (init ++ [last]) ↔ (∀ c ∈ init, c.isSound) ∧ last.isSound ∧ last.flag.isLink = false := by
  constructor
  · rintro ⟨hsound, init', last', heq, hlast⟩
    obtain ⟨rfl, hsingle⟩ := List.append_inj' heq rfl
    obtain rfl := List.singleton_inj.mp hsingle
    exact ⟨fun c hc => hsound c (List.mem_append_left _ hc), hsound _ (by simp), hlast⟩
  · rintro ⟨hinit, hsound, hlast⟩
    refine ⟨fun c hc => ?_, init, last, rfl, hlast⟩
    rcases List.mem_append.mp hc with hc | hc
    · exact hinit c hc
    · rwa [List.mem_singleton.mp hc]

/-- Sound conditions may stand before a closed run. -/
theorem Closed.append_left {conditions others : List Condition} (hconditions : ∀ c ∈ conditions, c.isSound)
    (hothers : Closed others) : Closed (conditions ++ others) := by
  obtain ⟨hsound, init, last, rfl, hlast⟩ := hothers
  refine ⟨fun c hc => ?_, conditions ++ init, last, (List.append_assoc _ _ _).symm, hlast⟩
  rcases List.mem_append.mp hc with hc | hc
  · exact hconditions c hc
  · exact hsound c hc

/-- A closed run is a sound group. -/
theorem Closed.isSoundGroup {conditions : List Condition} (h : Closed conditions) : IsSoundGroup conditions := by
  obtain ⟨hsound, init, last, rfl, hlast⟩ := h
  refine ⟨by simp, fun c hc hflag => ?_, fun c hc hflag => ?_, fun last' hlast' => ?_⟩
  · have hc := hsound c hc
    rw [Condition.isSound, if_neg (by simp [hflag])] at hc
    obtain ⟨⟨op, operand⟩, hright, hop⟩ := (Option.any_eq_true _ _).mp hc
    cases op with
    | compare op => exact ⟨op, operand, hright⟩
    | multiply => cases hop
    | divide => cases hop
  · have hc := hsound c hc
    rw [Condition.isSound, if_pos hflag] at hc
    exact of_decide_eq_true hc
  · obtain rfl : last = last' := by simpa using hlast'
    revert hlast
    cases last.flag <;> decide

/-! ## One step of a routine -/

/-- What lowers smaller conditions gives closed runs. -/
def LowersClosed (lower : Expr → Except Error (List Condition)) : Prop :=
  ∀ e conditions, lower e = .ok conditions → Closed conditions

/-- A flag on the last line of a closed run keeps all lines sound, and the run closed if the flag is no link. -/
theorem Closed.flagLast {flag : Flag} {e : Expr} {conditions flagged : List Condition} (hclosed : Closed conditions)
    (hflag : flag.isSource = false) (h : flagLast flag e conditions = .ok flagged) :
    (∀ c ∈ flagged, c.isSound) ∧ (flag.isLink = false → Closed flagged) := by
  obtain ⟨init, last, rfl, hplain, rfl⟩ := flagLast_eq_ok h
  obtain ⟨hinit, hlast, _⟩ := closed_concat.mp hclosed
  have hsource : last.flag.isSource = false := by rw [hplain]; rfl
  have hsound : Condition.isSound { last with flag } := by
    simpa [Condition.isSound, hsource, hflag] using hlast
  refine ⟨fun c hc => ?_, fun hlink => closed_concat.mpr ⟨hinit, hsound, hlink⟩⟩
  rcases List.mem_append.mp hc with hc | hc
  · exact hinit c hc
  · rwa [List.mem_singleton.mp hc]

/-- A hit count on the last line of a closed run keeps it closed: the line is no source. -/
theorem Closed.countLast {hits : UInt32} {e : Expr} {conditions counted : List Condition} (hclosed : Closed conditions)
    (h : countLast hits e conditions = .ok counted) : Closed counted := by
  obtain ⟨init, last, rfl, _, rfl⟩ := countLast_eq_ok h
  obtain ⟨hinit, hlast, hlink⟩ := closed_concat.mp hclosed
  have hsource : last.flag.isSource = false := by
    revert hlink
    cases last.flag <;> decide
  refine closed_concat.mpr ⟨hinit, ?_, hlink⟩
  simpa [Condition.isSound, hsource] using hlast

section Routines

variable {lower : Expr → Except Error (List Condition)} (hlower : LowersClosed lower)
include hlower

/-- Conditions that are lowered one after the other are a closed run. -/
theorem closed_all {es : List Expr} {conditions : List Condition} (hne : es ≠ []) (h : all lower es = .ok conditions) :
    Closed conditions := by
  induction es generalizing conditions with
  | nil => exact absurd rfl hne
  | cons e es ih =>
    obtain ⟨first, hfirst, h⟩ := bind_eq_ok.mp h
    obtain ⟨others, hothers, h⟩ := bind_eq_ok.mp h
    rw [← Except.ok.inj h]
    cases es with
    | nil =>
      rw [← Except.ok.inj hothers, List.append_nil]
      exact hlower e first hfirst
    | cons e' es => exact (ih (by simp) hothers).append_left (hlower e first hfirst).1

/-- Conditions that are flagged one by one are sound, and a closed run if the flag is no link. -/
theorem closed_allFlagged {flag : Flag} {es : List Expr} {conditions : List Condition} (hflag : flag.isSource = false)
    (h : allFlagged lower flag es = .ok conditions) :
    (∀ c ∈ conditions, c.isSound) ∧ (es ≠ [] → flag.isLink = false → Closed conditions) := by
  induction es generalizing conditions with
  | nil =>
    rw [← Except.ok.inj h]
    exact ⟨List.forall_mem_nil _, fun hne => absurd rfl hne⟩
  | cons e es ih =>
    obtain ⟨lowered, hlowered, h⟩ := bind_eq_ok.mp h
    obtain ⟨first, hfirst, h⟩ := bind_eq_ok.mp h
    obtain ⟨others, hothers, h⟩ := bind_eq_ok.mp h
    rw [← Except.ok.inj h]
    obtain ⟨hsound, hclosed⟩ := (hlower e lowered hlowered).flagLast hflag hfirst
    obtain ⟨hsound', hclosed'⟩ := ih hothers
    refine ⟨fun c hc => ?_, fun _ hlink => ?_⟩
    · rcases List.mem_append.mp hc with hc | hc
      · exact hsound c hc
      · exact hsound' c hc
    · cases es with
      | nil =>
        rw [← Except.ok.inj hothers, List.append_nil]
        exact hclosed hlink
      | cons e' es => exact (hclosed' (by simp) hlink).append_left hsound

/-- Linked conditions are a closed run: the last one keeps its flag. -/
theorem closed_chain {flag : Flag} {es : List Expr} {conditions : List Condition} (hflag : flag.isSource = false)
    (hne : es ≠ []) (h : chain lower flag es = .ok conditions) : Closed conditions := by
  fun_induction chain lower flag es generalizing conditions with
  | case1 => exact absurd rfl hne
  | case2 e => exact hlower e conditions h
  | case3 e es hmore ih =>
    obtain ⟨lowered, hlowered, h⟩ := bind_eq_ok.mp h
    obtain ⟨first, hfirst, h⟩ := bind_eq_ok.mp h
    obtain ⟨others, hothers, h⟩ := bind_eq_ok.mp h
    rw [← Except.ok.inj h]
    exact (ih (fun hnil => hmore hnil) hothers).append_left ((hlower e lowered hlowered).flagLast hflag hfirst).1

/-- A counted conjunction is a closed run: its resets stand before the conditions that are counted. -/
theorem closed_countedConjunction {condition : Expr} {conditions : List Condition}
    (h : countedConjunction lower condition = .ok conditions) : Closed conditions := by
  obtain ⟨resets, hresets, h⟩ := bind_eq_ok.mp h
  split at h
  · cases h
  · rename_i hcounted
    obtain ⟨counted, hchain, h⟩ := bind_eq_ok.mp h
    rw [← Except.ok.inj h]
    have hne := fun heq => hcounted (List.isEmpty_iff.mpr heq)
    exact (closed_chain hlower rfl hne hchain).append_left (closed_allFlagged hlower rfl hresets).1

/-- A counted condition is lowered to a closed run. -/
theorem closed_counted {condition : Expr} {conditions : List Condition} (h : counted lower condition = .ok conditions) :
    Closed conditions := by
  unfold counted at h
  split at h
  · exact closed_countedConjunction hlower h
  · split at h
    · exact closed_chain hlower rfl (Expr.parts_ne_nil .any false condition) h
    · exact hlower condition conditions h

/-- A flag that is no link leaves a closed run, whether it stands on one condition or on all parts of a disjunction. -/
theorem closed_flagged {flag : Flag} {condition : Expr} {conditions : List Condition} (hflag : flag.isLink = false)
    (h : flagged lower flag condition = .ok conditions) : Closed conditions := by
  have hsource : flag.isSource = false := by
    revert hflag
    cases flag <;> decide
  unfold flagged at h
  split at h
  · exact (closed_allFlagged hlower hsource h).2 (Expr.parts_ne_nil .any false condition) hflag
  · exact (closed_allFlagged hlower hsource h).2 (by simp) hflag

/-- A tally ends in the condition that carries its target. -/
theorem closed_tally {e : Expr} {target : UInt32} {entries : List Expr} {conditions : List Condition}
    (h : tally lower e target entries = .ok conditions) : Closed conditions := by
  unfold tally at h
  simp only at h
  split at h
  · cases h
  · rename_i last _
    obtain ⟨added, hadded, h⟩ := bind_eq_ok.mp h
    obtain ⟨deducted, hdeducted, h⟩ := bind_eq_ok.mp h
    obtain ⟨lowered, hlowered, h⟩ := bind_eq_ok.mp h
    obtain ⟨final, hfinal, h⟩ := bind_eq_ok.mp h
    rw [← Except.ok.inj h, List.append_assoc]
    have hclosed := (hlower last lowered hlowered).countLast hfinal
    exact (hclosed.append_left (closed_allFlagged hlower rfl hdeducted).1).append_left
      (closed_allFlagged hlower rfl hadded).1

/-- A modified condition is lowered to a closed run. -/
theorem closed_modified {e : Expr} {modifier : Modifier} {condition : Expr} {conditions : List Condition}
    (h : modified lower e modifier condition = .ok conditions) : Closed conditions := by
  cases modifier with
  | repeated count =>
    obtain ⟨conditions, hconditions, h⟩ := bind_eq_ok.mp h
    exact (closed_counted hlower hconditions).countLast h
  | never => exact closed_flagged hlower (by rfl) h
  | «unless» => exact closed_flagged hlower (by rfl) h
  | triggerWhen => exact closed_flagged hlower (by rfl) h
  | measured => exact closed_flagged hlower (by rfl) h
  | deduct => cases h

end Routines

/-- A lowered comparison is a closed run of uncounted sources and a plain comparison. -/
theorem closed_comparison {e : Expr} {op : ComparisonOp} {left right : Expr} {conditions : List Condition}
    (h : comparison e op left right = .ok conditions) : Closed conditions := by
  obtain ⟨terms, last, hlast⟩ := comparison_exact h {}
  obtain ⟨op', operand, hright⟩ := hlast.isComparison
  rw [hlast.conditions_eq]
  refine closed_concat.mpr ⟨fun c hc => ?_, ?_, by rw [hlast.flag_eq]; rfl⟩
  · obtain ⟨term, _, rfl⟩ := List.mem_map.mp hc
    cases hnegative : term.negative <;> simp [SumTerm.source, Condition.isSound, hnegative, Flag.isSource]
  · simp [Condition.isSound, hlast.flag_eq, hright, Flag.isSource, Operator.isComparison]

/-- A plain condition that is sound is a closed run. -/
theorem closed_plain {condition : Condition} (hflag : condition.flag = .plain) (hsound : condition.isSound) :
    Closed [condition] :=
  closed_concat.mpr ⟨List.forall_mem_nil _, hsound, by rw [hflag]; rfl⟩

/-- One step of lowering gives a closed run if the steps into smaller conditions do. -/
theorem closed_step {lower : Expr → Except Error (List Condition)} (hlower : LowersClosed lower) :
    LowersClosed (step lower) := by
  intro e conditions h
  cases e with
  | comparison mark op left right => exact closed_comparison h
  | boolean mark value =>
    rw [← Except.ok.inj h]
    cases value <;> exact closed_plain rfl rfl
  | alwaysTrue mark =>
    rw [← Except.ok.inj h]
    exact closed_plain rfl rfl
  | alwaysFalse mark =>
    rw [← Except.ok.inj h]
    exact closed_plain rfl rfl
  | logical mark op left right =>
    cases op with
    | not =>
      rw [step] at h
      split at h
      · cases h
      · exact hlower _ conditions h
    | and =>
      cases left with
      | none => cases h
      | some left => exact closed_chain hlower rfl (Expr.parts_ne_nil .all false _) h
    | or =>
      cases left with
      | none => cases h
      | some left => exact closed_chain hlower rfl (Expr.parts_ne_nil .any false _) h
  | modified mark modifier condition => exact closed_modified hlower h
  | tally mark target entries => exact closed_tally hlower h
  | _ => cases h

/-- Lowering a condition gives a closed run. -/
theorem closed_clause : LowersClosed clause := by
  intro e conditions h
  have hwithin : ∀ bound, LowersClosed (clauseWithin bound) := by
    intro bound
    induction bound with
    | zero =>
      intro e conditions h
      cases h
    | succ bound ih => exact closed_step ih
  exact hwithin _ e conditions h

/-- Every alternative group is a closed run. -/
theorem closed_alternatives {branches : List Expr} {groups : List (List Condition)}
    (h : alternatives branches = .ok groups) : ∀ group ∈ groups, Closed group := by
  induction branches generalizing groups with
  | nil =>
    rw [← Except.ok.inj h]
    exact List.forall_mem_nil _
  | cons branch branches ih =>
    obtain ⟨first, hfirst, h⟩ := bind_eq_ok.mp h
    obtain ⟨others, hothers, h⟩ := bind_eq_ok.mp h
    rw [← Except.ok.inj h]
    intro group hgroup
    rcases List.mem_cons.mp hgroup with rfl | hgroup
    · exact closed_all closed_clause (Expr.parts_ne_nil .all false branch) hfirst
    · exact ih hothers group hgroup

end Lowering

namespace Trigger

open Lowering

/-- Every group of a lowered trigger is a closed run; a core without clauses is filled. -/
theorem closed_ofExpr {e : Expr} {trigger : Trigger} (h : ofExpr e = .ok trigger) :
    ∀ group ∈ trigger.groups, Closed group := by
  obtain ⟨core, hcore, hrest⟩ := ofExpr_eq_ok h
  intro group hgroup
  rcases hrest with ⟨_, hclauses, rfl⟩ | ⟨_, _, _, groups, _, _, _, hgroups, rfl⟩
  · obtain rfl := List.mem_singleton.mp hgroup
    refine closed_all closed_clause ?_ hcore
    rw [hclauses]
    exact Expr.parts_ne_nil .all false e
  · rcases List.mem_cons.mp hgroup with rfl | hgroup
    · by_cases hclauses : e.coreClauses = []
      · rw [hclauses] at hcore
        rw [← Except.ok.inj hcore]
        exact closed_plain rfl rfl
      · have hclosed := closed_all closed_clause hclauses hcore
        have hne : ¬ core.isEmpty := fun hempty => hclosed.isSoundGroup.ne_nil (List.isEmpty_iff.mp hempty)
        rwa [if_neg hne]
    · exact closed_alternatives hgroups group hgroup

/-- A trigger whose groups are closed runs is well-formed. -/
theorem isWellFormed_of_closed {trigger : Trigger} (h : ∀ group ∈ trigger.groups, Closed group) : trigger.isWellFormed := by
  have hformed : ∀ c : Condition, c.isSound → c.isWellFormed := by
    intro c hc
    unfold Condition.isSound at hc
    unfold Condition.isWellFormed
    cases hsource : c.flag.isSource <;> simp_all
  refine isWellFormed_iff.mpr ⟨fun c hc => ?_, fun group hgroup => ?_⟩
  · exact hformed c ((h trigger.core List.mem_cons_self).1 c hc)
  · have hclosed := h group (List.mem_cons_of_mem _ hgroup)
    exact ⟨hclosed.isSoundGroup.ne_nil, fun c hc => hformed c (hclosed.1 c hc)⟩

/-- The groups of every lowered trigger are sound, and the trigger is read back from what it is written as. -/
theorem sound_ofExpr {e : Expr} {trigger : Trigger} (h : ofExpr e = .ok trigger) :
    (∀ group ∈ trigger.groups, IsSoundGroup group) ∧ ofWire trigger.wire = .ok trigger := by
  have hclosed := closed_ofExpr h
  exact ⟨fun group hgroup => (hclosed group hgroup).isSoundGroup, ofWire_wire (isWellFormed_of_closed hclosed)⟩

/-- A sum that is compared with a number, in two alternatives: one counts it with a reset, the other takes it off a
tally of itself. -/
def countedSum : Expr :=
  let sum : Expr := .arithmetic {} .add (.memory {} (.ofSize .byte 1)) (.memory {} (.ofSize .word 2))
  let reached : Expr := .comparison {} .greaterEqual sum (.integer {} 7)
  .logical {} .or
    (some (.modified {} .measured (.modified {} (.repeated 5)
      (.logical {} .and (some reached) (.modified {} .never (.alwaysTrue {}))))))
    (.tally {} 3 [reached, .modified {} .deduct (.boolean {} false), reached])

/-- Counted sums in alternatives are lowered to sound groups, which are read back. -/
theorem sound_ofExpr_countedSum :
    ∃ trigger, ofExpr countedSum = .ok trigger ∧
      trigger.wire =
        "1=1$Z:1=1_A:0xH000001_M:0x 000002>=7.5.$A:0xH000001_C:0x 000002>=7_D:0=1_A:0xH000001_0x 000002>=7.3." ∧
      (∀ group ∈ trigger.groups, IsSoundGroup group) ∧ ofWire trigger.wire = .ok trigger :=
  ⟨_, rfl, by decide, sound_ofExpr (e := countedSum) rfl⟩

end Trigger

end TriggerScript
