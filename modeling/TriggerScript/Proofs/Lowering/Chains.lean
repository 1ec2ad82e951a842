import TriggerScript.Proofs.Lowering.Comparison
import TriggerScript.Proofs.Lowering.Steps

/-!
# Lowered chains

A condition that is built by connectives alone becomes a run of linked conditions. Working through the run from any chain
on ends in the value that reading the formula of the condition from left to right gives (`Computes`).
-/

namespace TriggerScript

namespace Lowering

/-- Working through the conditions from any chain on ends at a plain comparison, with a value for the chain. -/
def Computes (m : MemoryState) (conditions : List Condition) (value : Running → Bool) : Prop :=
  ∃ init last, conditions = init ++ [last] ∧ last.flag = .plain ∧ last.hits = 0 ∧
    ∀ running, ∃ sum running',
      (∀ others, groupFrom m 0 running (init ++ others) = groupFrom m sum running' others) ∧
        running'.join (last.compares m sum) = value running

variable {m : MemoryState}

/-- A lowered comparison adds its truth to the chain. -/
theorem ComparesAs.computes {e : Expr} {conditions : List Condition} {terms : List SumTerm} {last : Condition}
    (h : ComparesAs e conditions terms last) (m : MemoryState) :
    Computes m conditions fun running => running.join (e.holdsIn m) := by
  refine ⟨_, last, h.conditions_eq, h.flag_eq, h.hits_eq, fun running => ⟨SumTerm.totalIn m terms, running, ?_, ?_⟩⟩
  · intro others
    rw [SumTerm.groupFrom_sources, Int.zero_add]
  · rw [Expr.holdsIn, h.truth_eq m, Option.getD_some]

/-- A comparison of two numbers adds its truth to the chain. -/
theorem computes_single {condition : Condition} (hflag : condition.flag = .plain) (hhits : condition.hits = 0) :
    Computes m [condition] fun running => running.join (condition.compares m 0) :=
  ⟨[], condition, rfl, hflag, hhits, fun running => ⟨0, running, fun _ => rfl, rfl⟩⟩

/-- The last condition of a run closes the chain. -/
theorem Computes.groupFrom_append {conditions : List Condition} {value : Running → Bool} (h : Computes m conditions value)
    (running : Running) (others : List Condition) :
    groupFrom m 0 running (conditions ++ others) = (groupFrom m 0 .start others).map (value running && ·) := by
  obtain ⟨init, last, rfl, hflag, hhits, hwalk⟩ := h
  obtain ⟨sum, running', hinit, hvalue⟩ := hwalk running
  rw [List.append_assoc, hinit, List.singleton_append, groupFrom]
  simp only [hhits, hflag, hvalue, ne_eq, not_true_eq_false, if_false]

/-- A link takes the value of a run on to the next condition. -/
theorem groupFrom_linked (c : Connective) (sum : Int) (running : Running) {last : Condition} (hhits : last.hits = 0)
    (others : List Condition) :
    groupFrom m sum running ({ last with flag := link c.op } :: others) =
      groupFrom m 0 (.linked c (running.join (last.compares m sum))) others := by
  rw [groupFrom]
  cases c <;> simp [hhits, link, Connective.op, Condition.compares]

/-- Two linked runs are one run. -/
theorem Computes.linked {c : Connective} {e : Expr} {first flagged others : List Condition} {value value' : Running → Bool}
    (hfirst : Computes m first value) (hflagged : flagLast (link c.op) e first = .ok flagged)
    (hothers : Computes m others value') :
    Computes m (flagged ++ others) fun running => value' (.linked c (value running)) := by
  obtain ⟨init, last, rfl, hflag, hhits, hwalk⟩ := hfirst
  obtain ⟨init', last', heq, _, rfl⟩ := flagLast_eq_ok hflagged
  obtain ⟨rfl, hlast⟩ := List.append_inj' heq rfl
  obtain rfl := List.singleton_inj.mp hlast
  obtain ⟨inner, final, rfl, hfflag, hfhits, hfwalk⟩ := hothers
  refine ⟨_, final, (List.append_assoc _ inner [final]).symm, hfflag, hfhits, fun running => ?_⟩
  obtain ⟨sum, running', hinit, hvalue⟩ := hwalk running
  obtain ⟨sum', running'', hinner, hvalue'⟩ := hfwalk (.linked c (value running))
  refine ⟨sum', running'', fun others => ?_, hvalue'⟩
  rw [List.append_assoc, List.append_assoc, hinit, List.singleton_append, groupFrom_linked c _ _ hhits, hvalue, hinner]

/-- The value of a condition in a chain: its formula, read from left to right. -/
def chainValue (m : MemoryState) (e : Expr) (running : Running) : Bool :=
  ((e.formula false).map (Expr.holdsIn m)).reading running

/-- Conditions that are lowered in a chain are read from left to right. -/
theorem computes_chain {lower : Expr → Except Error (List Condition)} (c : Connective) {es : List Expr}
    (hne : es ≠ []) (hes : ∀ e ∈ es, ∀ L, lower e = .ok L → Computes m L (chainValue m e)) {conditions : List Condition}
    (h : chain lower (link c.op) es = .ok conditions) :
    Computes m conditions fun running => Expr.chainReading c (Expr.holdsIn m) running es := by
  fun_induction chain lower (link c.op) es generalizing conditions with
  | case1 => exact absurd rfl hne
  | case2 e => exact hes e (List.mem_singleton_self e) conditions h
  | case3 e es hmore ih =>
    obtain ⟨first, hfirst, h⟩ := bind_eq_ok.mp h
    obtain ⟨flagged, hflagged, h⟩ := bind_eq_ok.mp h
    obtain ⟨others, hothers, h⟩ := bind_eq_ok.mp h
    rw [← Except.ok.inj h]
    have hmore : es ≠ [] := fun h => hmore h
    have hfirst := hes e List.mem_cons_self first hfirst
    have hothers := ih hmore (fun e' he' => hes e' (List.mem_cons_of_mem e he')) hothers
    have hrun := hfirst.linked hflagged hothers
    simp only [Expr.chainReading_cons _ _ _ _ hmore]
    exact hrun

/-- What lowering a condition says of it in every state: it computes its formula, read from left to right, and all leaves
of the formula have a truth. -/
def Faithful (e : Expr) (conditions : List Condition) : Prop :=
  ∀ m, Computes m conditions (chainValue m e) ∧ ∀ x ∈ (e.formula false).leaves, (x.truthIn? m).isSome

/-- A condition whose formula is a single leaf is lowered faithfully if the leaf is. -/
theorem faithful_of_leaf {e : Expr} {conditions : List Condition} (hleaf : e.formula false = .leaf e)
    (htruth : ∀ m, (e.truthIn? m).isSome) (h : ∀ m, Computes m conditions fun running => running.join (e.holdsIn m)) :
    Faithful e conditions := by
  intro m
  unfold chainValue
  rw [hleaf]
  refine ⟨h m, fun x hx => ?_⟩
  rw [List.mem_singleton.mp hx]
  exact htruth m

/-- The parts of a connective that are lowered faithfully in a chain are lowered faithfully as a whole. -/
theorem faithful_chain {lower : Expr → Except Error (List Condition)} (c : Connective) {e : Expr}
    {conditions : List Condition} (hparts : ∀ part ∈ e.parts c.op false, ∀ L, lower part = .ok L → Faithful part L)
    (h : chain lower (link c.op) (e.parts c.op false) = .ok conditions) : Faithful e conditions := by
  intro m
  constructor
  · have hrun := computes_chain c (Expr.parts_ne_nil c false e) (fun part hpart L hL => (hparts part hpart L hL m).1) h
    unfold chainValue
    simp only [Expr.reading_formula c]
    exact hrun
  · intro x hx
    rw [Expr.leaves_formula c] at hx
    obtain ⟨part, hpart, hx⟩ := List.mem_flatMap.mp hx
    obtain ⟨L, hL⟩ := chain_eq_ok h part hpart
    exact (hparts part hpart L hL m).2 x hx

/-- Lowering a condition with basic leaves is faithful. -/
theorem faithful_clauseWithin (n : Nat) {e : Expr} {conditions : List Condition}
    (hbasic : ∀ x ∈ (e.formula false).leaves, x.isBasic) (h : clauseWithin n e = .ok conditions) :
    Faithful e conditions := by
  induction n generalizing e conditions with
  | zero => cases h
  | succ n ih =>
    rw [clauseWithin] at h
    have joined : ∀ (c : Connective) (mark : Mark) (left right : Expr),
        (∀ x ∈ ((Expr.logical mark c.op (some left) right).formula false).leaves, x.isBasic) →
        chain (clauseWithin n) (link c.op) ((Expr.logical mark c.op (some left) right).parts c.op false) = .ok conditions →
        Faithful (.logical mark c.op (some left) right) conditions := by
      intro c mark left right hbasic h
      refine faithful_chain c (fun part hpart L hL => ih ?_ hL) h
      intro x hx
      rw [Expr.leaves_formula c] at hbasic
      exact hbasic x (List.mem_flatMap.mpr ⟨part, hpart, hx⟩)
    cases e with
    | comparison mark op left right =>
      obtain ⟨terms, last, hlast⟩ := comparison_exact h mark
      exact faithful_of_leaf rfl (fun m => by rw [hlast.truth_eq m]; rfl) hlast.computes
    | boolean mark value =>
      rw [← Except.ok.inj h]
      refine faithful_of_leaf rfl (fun m => rfl) fun m => ?_
      cases value <;> exact computes_single rfl rfl
    | alwaysTrue mark =>
      rw [← Except.ok.inj h]
      exact faithful_of_leaf rfl (fun m => rfl) fun m => computes_single rfl rfl
    | alwaysFalse mark =>
      rw [← Except.ok.inj h]
      exact faithful_of_leaf rfl (fun m => rfl) fun m => computes_single rfl rfl
    | logical mark op left right =>
      cases op with
      | not =>
        have hformula : (Expr.logical mark .not left right).formula false = right.invert.formula false :=
          (Expr.formula_invert false right).symm
        rw [step] at h
        split at h
        · cases h
        · have hfaithful := ih (hformula ▸ hbasic) h
          unfold Faithful chainValue at hfaithful ⊢
          rw [hformula]
          exact hfaithful
      | and =>
        cases left with
        | none => cases h
        | some left => exact joined .all mark left right hbasic h
      | or =>
        cases left with
        | none => cases h
        | some left => exact joined .any mark left right hbasic h
    | _ => cases hbasic _ (List.mem_singleton_self _)

end Lowering

end TriggerScript
