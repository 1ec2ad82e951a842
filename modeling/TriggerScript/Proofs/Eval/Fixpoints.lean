import TriggerScript.Proofs.Eval.Scopes

/-!
# Values are fixpoints

A value is in normal form: references stand for themselves, operators stay only over memory, connectives have no constant
operands and dictionaries have no key twice. Every way to make a value stays in normal form, and evaluation in any scope
leaves a normal form as it is.
-/

namespace TriggerScript

/-! ## Folding again -/

namespace Fold

variable {whole left right : Expr}

/-- Arithmetic over memory stays as it is. -/
theorem arithmetic_of_readsMemory {op : ArithmeticOp} (hreads : left.readsMemory = true ∨ right.readsMemory = true)
    (hleft : left.isNumeric = true) (hright : right.isNumeric = true) :
    arithmetic whole op left right = .ok (.arithmetic whole.mark op left right) := by
  unfold arithmetic
  split
  · rcases hreads with h | h <;> cases h
  · rw [joinsTexts_of_isNumeric op hleft hright, if_neg Bool.false_ne_true, if_pos]
    simp [hreads, hleft, hright]

/-- A comparison of numbers stays if one of them reads memory. -/
theorem comparison_of_readsMemory {op : ComparisonOp} (hreads : left.readsMemory = true ∨ right.readsMemory = true)
    (hleft : left.isNumeric = true) (hright : right.isNumeric = true) :
    comparison whole op left right = .ok (.comparison whole.mark op left right) := by
  have hopen : openComparison whole op left right = .ok (.comparison whole.mark op left right) := by
    simp [openComparison, hreads, hleft, hright]
  unfold comparison
  split
  · rcases hreads with h | h <;> cases h
  · cases hleft
  · cases hleft
  · exact hopen

/-- An operand of a connective passes the check. -/
theorem checkOperand_of_isOperand {op : LogicalOp} {operand : Expr} (h : operand.isOperand = true) :
    checkOperand whole op operand = .ok () :=
  if_pos h

/-- A negation of a condition that is no constant stays as it is. -/
theorem logical_not (hright : right.isOperand = true) (hconst : right.truth? = none) :
    logical whole .not none right = .ok (.logical whole.mark .not none right) := by
  have hnegation : negation whole right = .logical whole.mark .not none right := by rw [negation, hconst]
  unfold logical
  rw [checkOperand_of_isOperand hright, ← hnegation]
  rfl

/-- Two joined conditions that are no constants stay. -/
theorem logical_of_truth? {op : LogicalOp} (hop : op ≠ .not) (hleft : left.isOperand = true)
    (hright : right.isOperand = true) (hconst : left.truth? = none) (hconst' : right.truth? = none) :
    logical whole op (some left) right = .ok (.logical whole.mark op (some left) right) := by
  have hconnect : ∀ absorbing decided joined, connect absorbing decided joined left right = joined := by
    intro absorbing decided joined
    rw [connect, hconst, hconst']
  unfold logical
  dsimp only
  rw [checkOperand_of_isOperand hleft, checkOperand_of_isOperand hright]
  cases op with
  | not => exact absurd rfl hop
  | and | or => exact congrArg Except.ok (hconnect _ _ _)

end Fold

/-! ## Normal forms -/

namespace Expr

/-- Every node is one that evaluation makes; references may name anything. -/
abbrev IsNormal (e : Expr) : Prop :=
  e.Everywhere (IsMade fun _ => True)

instance (defined : String → Prop) [DecidablePred defined] : DecidablePred (IsMade defined)
  | .var .. | .indexed .. | .call .. | .returned .. => inferInstanceAs (Decidable False)
  | .functionRef _ name => inferInstanceAs (Decidable (defined name))
  | .dictionary _ entries =>
    inferInstanceAs (Decidable ((entries.map (·.1)).Pairwise fun key key' => key.same key' = false))
  | .arithmetic _ _ left right | .comparison _ _ left right =>
    inferInstanceAs (Decidable ((left.readsMemory = true ∨ right.readsMemory = true) ∧
      left.isNumeric = true ∧ right.isNumeric = true))
  | .logical _ .not none right => inferInstanceAs (Decidable (right.isOperand = true ∧ right.truth? = none))
  | .logical _ .and (some left) right | .logical _ .or (some left) right =>
    inferInstanceAs (Decidable ((left.isOperand = true ∧ left.truth? = none) ∧
      right.isOperand = true ∧ right.truth? = none))
  | .logical _ .not (some _) _ | .logical _ .and none _ | .logical _ .or none _ => inferInstanceAs (Decidable False)
  | .integer .. | .text .. | .boolean .. | .array .. | .memory .. | .modified .. | .tally .. | .alwaysTrue ..
  | .alwaysFalse .. | .presence .. => inferInstanceAs (Decidable True)

theorem IsMade.mono {defined defined' : String → Prop} (hdefined : ∀ name, defined name → defined' name) {e : Expr}
    (h : e.IsMade defined) : e.IsMade defined' := by
  cases e with
  | functionRef mark name => exact hdefined name h
  | logical mark op left right => cases op <;> cases left <;> exact h
  | _ => exact h

theorem isMade_withMark {defined : String → Prop} {mark : Mark} {e : Expr} :
    (e.withMark mark).IsMade defined ↔ e.IsMade defined := by
  cases e with
  | logical mark op left right => cases op <;> cases left <;> rfl
  | _ => rfl

/-- Marks make no difference to what evaluation makes. -/
theorem isMade_bare {defined : String → Prop} (e : Expr) : e.bare.IsMade defined ↔ e.IsMade defined := by
  cases e with
  | dictionary mark entries => simp [bare, IsMade, bareEntries_eq, List.pairwise_map, same_bare]
  | arithmetic | comparison => simp [bare, IsMade, readsMemory_bare, isNumeric_bare]
  | logical mark op left right =>
    cases op <;> cases left <;> simp [bare, bareOption, IsMade, isOperand_bare, truth?_bare]
  | _ => rfl

/-- What evaluation makes is worked out and has a value. -/
theorem IsMade.isReduced {defined : String → Prop} {e : Expr} (h : e.IsMade defined) :
    e.isPending = false ∧ e.isValue = true := by
  cases e with
  | var | indexed | call | returned => cases h
  | _ => exact ⟨rfl, rfl⟩

namespace IsNormal

variable {e : Expr} (h : e.IsNormal)
include h

theorem isReduced : e.isReduced = true :=
  isReduced_iff.mpr (h.mono fun _ => IsMade.isReduced)

theorem isValue : e.isValue = true :=
  h.root.isReduced.2

/-- A tree that is the same as a normal form is one. -/
theorem of_same {e' : Expr} (hsame : e.same e' = true) : e'.IsNormal :=
  Everywhere.of_same isMade_bare h hsame

end IsNormal

/-- The negation of a condition in normal form is in normal form, and a constant only if the condition is one. -/
theorem IsNormal.invert {e : Expr} (h : e.IsNormal) (hoperand : e.isOperand = true) :
    e.invert.IsNormal ∧ e.invert.isOperand = true ∧ (e.truth? = none → e.invert.truth? = none) := by
  induction e using Expr.invert.induct with
  | case1 mark op left right =>
    rw [Expr.invert]
    exact ⟨everywhere_iff.mpr ⟨h.root, (everywhere_iff.mp h).2⟩, rfl, fun _ => rfl⟩
  | case2 mark left right ihleft ihright | case3 mark left right ihleft ihright =>
    rw [Expr.invert]
    obtain ⟨⟨hleft, hconst⟩, hright, hconst'⟩ := h.root
    obtain ⟨hleft, hleft', hleftConst⟩ := ihleft (h.part (by simp [children])) hleft
    obtain ⟨hright, hright', hrightConst⟩ := ihright (h.part (by simp [children])) hright
    refine ⟨everywhere_iff.mpr ⟨⟨⟨hleft', hleftConst hconst⟩, hright', hrightConst hconst'⟩, ?_⟩, rfl, fun _ => rfl⟩
    simp [children, hleft, hright]
  | case4 mark left right =>
    rw [Expr.invert]
    cases left with
    | none => exact ⟨h.part (by simp [children]), h.root.1, fun _ => h.root.2⟩
    | some left => cases h.root
  | case5 mark value =>
    rw [Expr.invert]
    exact ⟨everywhere_of_children_nil rfl trivial, rfl, fun hnone => by cases hnone⟩
  | case6 | case7 =>
    rw [Expr.invert]
    exact ⟨everywhere_of_children_nil rfl trivial, rfl, fun _ => rfl⟩
  | case8 e _ _ _ _ hboolean =>
    have hnegate : e.invert = e.negate := by rw [Expr.invert] <;> assumption
    rw [hnegate]
    refine ⟨everywhere_iff.mpr ⟨⟨hoperand, ?_⟩, ?_⟩, rfl, fun _ => rfl⟩
    · cases e with
      | boolean mark value => exact absurd rfl (hboolean mark value)
      | _ => rfl
    · simpa [negate, children] using h

section Again

variable {env : Env}

theorem ifValue_of_isValue {e : Expr} {run : Eval Expr} (h : e.isValue = true) : e.ifValue run = run :=
  if_pos h

/-- Trees that replacing leaves alone are left alone one by one. -/
theorem replaceAll_of_forall {es : List Expr} (h : ∀ e ∈ es, e.replace env = pure e) :
    replaceAll env es = pure es := by
  induction es with
  | nil => rfl
  | cons e es ih =>
    rw [List.forall_mem_cons] at h
    rw [replaceAll, h.1, ih h.2]
    rfl

/-- Values that replacing leaves alone are evaluated to themselves. -/
theorem evaluateAll_of_forall {es : List Expr} (h : ∀ e ∈ es, e.isValue = true ∧ e.replace env = pure e) :
    evaluateAll env es = pure es := by
  induction es with
  | nil => rfl
  | cons e es ih =>
    rw [List.forall_mem_cons] at h
    rw [evaluateAll, ifValue_of_isValue h.1.1, h.1.2, ih h.2]
    rfl

/-- Entries that evaluation leaves alone stay if their keys differ from each other and from those before them. -/
theorem evaluateEntries_of_forall {entries done : List (Expr × Expr)}
    (h : ∀ entry ∈ entries, (entry.1.isValue = true ∧ entry.1.replace env = pure entry.1) ∧
      entry.2.isValue = true ∧ entry.2.replace env = pure entry.2)
    (hkeys : ((done ++ entries).map (·.1)).Pairwise fun key key' => key.same key' = false) :
    evaluateEntries env done entries = pure (done ++ entries) := by
  induction entries generalizing done with
  | nil => rw [evaluateEntries, List.append_nil]
  | cons entry entries ih =>
    rw [List.forall_mem_cons] at h
    obtain ⟨⟨⟨hkey, hkey'⟩, hvalue, hvalue'⟩, hrest⟩ := h
    have hfresh : ¬ done.any (·.1.same entry.1) = true := by
      rw [List.any_eq_true]
      rintro ⟨other, hother, hsame⟩
      rw [List.map_append, List.pairwise_append] at hkeys
      have hne := hkeys.2.2 other.1 (List.mem_map_of_mem hother) entry.1 (by simp)
      rw [hsame] at hne
      cases hne
    have happend : done ++ entry :: entries = done ++ [entry] ++ entries := by simp
    rw [happend] at hkeys ⊢
    rw [evaluateEntries, ifValue_of_isValue hkey, hkey', ifValue_of_isValue hvalue, hvalue', ← ih hrest hkeys]
    exact if_neg hfresh

/-- Replacing leaves a normal form alone, whatever names and calls mean. -/
theorem replace_of_isNormal {e : Expr} (h : e.IsNormal) : e.replace env = pure e := by
  induction e using children_induction with
  | h e ih =>
    have hpart : ∀ part ∈ e.children, part.replace env = pure part := fun part hmem => ih part hmem (h.part hmem)
    have hvalue : ∀ part ∈ e.children, part.isValue = true ∧ part.replace env = pure part :=
      fun part hmem => ⟨IsNormal.isValue (h.part hmem), hpart part hmem⟩
    cases e with
    | integer | text | boolean | functionRef | memory | alwaysTrue | alwaysFalse => rfl
    | var | indexed | call | returned => cases h.root
    | array mark entries =>
      have hall : evaluateAll env entries = pure entries := evaluateAll_of_forall hvalue
      rw [replace, hall]
      rfl
    | dictionary mark entries =>
      have hall : evaluateEntries env [] entries = pure entries :=
        evaluateEntries_of_forall (forall_children_dictionary.mp hvalue) h.root
      rw [replace, hall]
      rfl
    | arithmetic mark op left right =>
      obtain ⟨hreads, hleft, hright⟩ := h.root
      rw [replace, hpart left (by simp [children]), hpart right (by simp [children])]
      exact congrArg Run.ofExcept (Fold.arithmetic_of_readsMemory hreads hleft hright)
    | comparison mark op left right =>
      obtain ⟨hreads, hleft, hright⟩ := h.root
      rw [replace, hpart left (by simp [children]), hpart right (by simp [children])]
      exact congrArg Run.ofExcept (Fold.comparison_of_readsMemory hreads hleft hright)
    | logical mark op left? right =>
      rw [replace, hpart right (by simp [children])]
      cases left? with
      | none =>
        cases op with
        | not => exact congrArg Run.ofExcept (Fold.logical_not h.root.1 h.root.2)
        | and | or => cases h.root
      | some left =>
        rw [replaceOption, hpart left (by simp [children])]
        cases op with
        | not => cases h.root
        | and | or =>
          obtain ⟨⟨hleft, hconst⟩, hright, hconst'⟩ := h.root
          exact congrArg Run.ofExcept (Fold.logical_of_truth? (by decide) hleft hright hconst hconst')
    | modified mark modifier condition =>
      rw [replace, hpart condition (by simp [children])]
      rfl
    | tally mark target entries =>
      have hall : replaceAll env entries = pure entries := replaceAll_of_forall hpart
      rw [replace, hall]
      rfl
    | presence mark name display value =>
      rw [replace, hpart value (by simp [children])]
      rfl

/-- A value that is worked out evaluates to itself. -/
theorem evaluate_of_isNormal {e : Expr} (h : e.IsNormal) : e.evaluate env = pure e := by
  rw [evaluate, ifValue_of_isValue h.isValue, replace_of_isNormal h]

end Again

/-! ## Scripts that stay in normal form -/

/-- Whether no node of a tree ends a function. -/
def isReturnFree (e : Expr) : Bool :=
  e.nodes.all isValue

/-- A tree without returns is one in which every node is a value. -/
theorem isReturnFree_iff {e : Expr} : e.isReturnFree = true ↔ e.Everywhere fun node => node.isValue = true :=
  List.all_eq_true

/-- A tree in which no function ends and which resolving names leaves as it is, in every scope. -/
def IsFixpoint (settings : Settings) (v : Expr) : Prop :=
  v.isReturnFree = true ∧
    ∀ scope output, ∃ v' output', Scope.replace settings scope v output = (.ok v', output') ∧ v'.same v = true

end Expr

mutual

/-- Whether a statement ends functions only by an expression that stands alone; a definition inside a block never runs. -/
def Stmt.returnsAtRoot : Stmt → Bool
  | .assign _ indices value => indices.all Expr.isReturnFree && value.isReturnFree
  | .define .. => true
  | .loop _ collection body => collection.isReturnFree && Stmt.blockReturnsAtRoot body
  | .choose condition yes no => condition.isReturnFree && Stmt.blockReturnsAtRoot yes && Stmt.blockReturnsAtRoot no
  | .expression (.returned _ value) => value.isReturnFree
  | .expression e => e.isReturnFree

/-- Whether all statements of a block do. -/
def Stmt.blockReturnsAtRoot : List Stmt → Bool
  | [] => true
  | s :: ss => s.returnsAtRoot && Stmt.blockReturnsAtRoot ss

end

/-- Whether a function has no defaults and returns only at the root of expressions that stand alone. -/
def Function.isPlain (function : Function) : Bool :=
  function.parameters.all (·.default?.isNone) && Stmt.blockReturnsAtRoot function.body

namespace Discipline

/-- Evaluation stays in normal form if all bound expressions are and no function ends inside a written one. -/
def normal (table : Bindings Function) : Discipline where
  table
  written node := node.isValue = true
  held := Expr.IsMade fun _ => True
  made := Expr.IsMade fun _ => True
  operand e := e.isOperand = true
  name _ := True
  output _ := True
  exempt _ := False

variable {table : Bindings Function}

mutual

/-- A statement that returns only at the root of expressions is admissible. -/
theorem admissible_normal : ∀ {s : Stmt}, s.returnsAtRoot = true → (normal table).Admissible s
  | .assign name indices value, h => by
    rw [Stmt.returnsAtRoot, Bool.and_eq_true, List.all_eq_true] at h
    exact ⟨trivial, fun index hmem => Expr.isReturnFree_iff.mp (h.1 index hmem), Expr.isReturnFree_iff.mp h.2⟩
  | .define .., _ => trivial
  | .loop name collection body, h => by
    rw [Stmt.returnsAtRoot, Bool.and_eq_true] at h
    exact ⟨trivial, Expr.isReturnFree_iff.mp h.1, admissibleBlock_normal h.2⟩
  | .choose condition yes no, h => by
    rw [Stmt.returnsAtRoot, Bool.and_eq_true, Bool.and_eq_true] at h
    exact ⟨Expr.isReturnFree_iff.mp h.1.1, admissibleBlock_normal h.1.2, admissibleBlock_normal h.2⟩
  | .expression e, h => by
    cases e with
    | returned mark value => exact Expr.isReturnFree_iff.mp h
    | call mark name args => exact fun arg hmem => (Expr.isReturnFree_iff.mp h).part hmem
    | _ => trivial

/-- A block of statements that return only at the root of expressions is admissible. -/
theorem admissibleBlock_normal : ∀ {ss : List Stmt}, Stmt.blockReturnsAtRoot ss = true → (normal table).AdmissibleBlock ss
  | [], _ => trivial
  | s :: ss, h => by
    rw [Stmt.blockReturnsAtRoot, Bool.and_eq_true] at h
    exact ⟨admissible_normal h.1, admissibleBlock_normal h.2⟩

end

/-- A plain function may be called. -/
theorem callable_normal {function : Function} (h : function.isPlain = true) : (normal table).Callable function := by
  rw [Function.isPlain, Bool.and_eq_true, List.all_eq_true] at h
  refine ⟨fun _ _ => trivial, ?_, admissibleBlock_normal h.2⟩
  intro parameter hmem default hdefault
  have hnone := h.1 parameter hmem
  rw [hdefault] at hnone
  cases hnone

/-- With plain functions only, evaluation keeps to values that are worked out. -/
theorem lawful_normal (hplain : ∀ name function, table.find? name = some function → function.isPlain = true) :
    (normal table).Lawful where
  made_of_isMade h := h.mono fun _ _ => trivial
  made_reference _ := trivial
  made_returned h := by cases h
  made_withMark h := Expr.isMade_withMark.mpr h
  held_of_made h := h
  made_of_held h _ := h
  written_of_held {e} h hreduced := by
    rw [Expr.IsNormal.isReduced h] at hreduced
    cases hreduced
  held_dictionary {mark entries entries'} h hkeys := by
    change (entries'.map (·.1)).Pairwise fun key key' => key.same key' = false
    rcases hkeys with hkeys | ⟨key, hkeys, hfresh⟩
    · rw [hkeys]
      exact h
    · rw [hkeys, List.pairwise_append]
      refine ⟨h, List.pairwise_singleton _ _, fun other hother key' hkey' => ?_⟩
      rw [List.mem_singleton.mp hkey']
      exact hfresh other hother
  operand_of_isOperand h := h
  operand_withMark {mark e} h := by cases e <;> exact h
  made_invert h hcondition :=
    have hinvert := Expr.IsNormal.invert h (Expr.isOperand_of_isCondition hcondition)
    ⟨hinvert.1, hinvert.2.1⟩
  made_logical {mark op left right} hop hleft hright hconst hconst' := by
    cases op with
    | not => exact absurd rfl hop
    | and | or => exact ⟨⟨hleft, hconst⟩, hright, hconst'⟩
  callable h := callable_normal (hplain _ _ h)
  output_called _ := trivial
  output_apply _ _ := trivial

end Discipline

/-- The fixpoints are the normal forms: what evaluation leaves as it is in a scope without names is left so in every scope.
-/
theorem Expr.isFixpoint_iff {settings : Settings} {v : Expr} : v.IsFixpoint settings ↔ v.IsNormal := by
  constructor
  · intro h
    have hd : (Discipline.normal {}).Lawful := Discipline.lawful_normal fun _ _ hfind => by cases hfind
    have hscope : (Discipline.normal {}).Admits 0 Scope.global := by
      refine ⟨rfl, rfl, fun frame hframe name value hfind => ?_⟩
      rw [List.mem_singleton.mp hframe] at hfind
      cases hfind
    obtain ⟨v', output', heval, hsame⟩ := h.2 Scope.global {}
    have hagree := Discipline.agree_replace hd (Discipline.agree_envUnder hd settings hscope)
      (Expr.isReturnFree_iff.mp h.1) {} trivial
    have hnormal : v'.IsNormal := hagree.2.1 v' (congrArg Prod.fst heval)
    exact hnormal.of_same hsame
  · intro h
    refine ⟨Expr.isReturnFree_iff.mpr (h.mono fun _ hnode => hnode.isReduced.2), fun scope output => ⟨v, output, ?_, ?_⟩⟩
    · rw [Scope.replace, Expr.replace_of_isNormal h]
      rfl
    · exact Expr.same_of_bare_eq rfl

namespace Scope

/-- In a scope whose variables are bound to fixpoints and whose functions are plain, every value of a tree in which no
function ends evaluates to itself in any scope, and registers nothing on the way. -/
theorem evaluation_reaches_fixpoints {settings : Settings} {scope : Scope} {e v : Expr} {output output' : Output}
    (hvariables : ∀ frame ∈ scope.frames, ∀ name value, frame.locals.find? name = some value → value.IsFixpoint settings)
    (hfunctions : ∀ name function, scope.function? name = some function → function.isPlain = true)
    (he : e.isReturnFree = true) (h : scope.evaluate settings e output = (.ok v, output')) :
    ∀ settings' scope' output'', Scope.evaluate settings' scope' v output'' = (.ok v, output'') := by
  let d := Discipline.normal scope.globalFrame.functions
  have hd : d.Lawful := Discipline.lawful_normal hfunctions
  have hscope : d.Admits scope.depth scope :=
    ⟨rfl, rfl, fun frame hframe name value hfind =>
      ⟨trivial, Expr.isFixpoint_iff.mp (hvariables frame hframe name value hfind)⟩⟩
  have hnormal : v.IsNormal := Discipline.made_of_evaluate hd hscope (Expr.isReturnFree_iff.mp he) trivial h
  intro settings' scope' output''
  rw [evaluate, Expr.evaluate_of_isNormal hnormal]
  rfl

/-- A scope with evaluated variables and a function that collects conditions in a dictionary and returns one of them. -/
def withEvaluatedVariables : Scope :=
  let health : Expr := .memory {} (.ofSize .byte 16)
  let limits : Expr := .dictionary {} [(.integer {} 1, .boolean {} true), (.integer {} 2, .text {} "two")]
  ((Scope.global.assign "health" health).assign "limits" limits).define
    { name := "within"
      parameters := [⟨"limit", none⟩]
      body :=
        [.assign "found" [] (.dictionary {} []),
          .loop "i" (.array {} [.integer {} 1, .integer {} 2])
            [.assign "found" [.var {} "i"]
              (.comparison {} .less (.arithmetic {} .add (.var {} "health") (.var {} "i")) (.var {} "limit"))],
          .expression (.returned {}
            (.logical {} .and (some (.indexed {} (.var {} "found") (.integer {} 2))) (.boolean {} true)))]
      span := {} }

/-- A function of the script applied to an array in a variable. -/
theorem evaluation_reaches_fixpoints_none_of :
    ∃ v output, withEvaluatedVariables.evaluate {} (.call {} "none_of" [.var {} "limits", .var {} "within"]) {} =
        (.ok v, output) ∧
      v.render = "byte(0x000010) + 2 >= 1 && byte(0x000010) + 2 >= 2" ∧
      ∀ settings' scope' output'', Scope.evaluate settings' scope' v output'' = (.ok v, output'') := by
  have hnormal : ∀ frame ∈ withEvaluatedVariables.frames, ∀ entry ∈ frame.locals.entries, entry.2.IsNormal := by
    decide +kernel
  have hplain : ∀ entry ∈ withEvaluatedVariables.globalFrame.functions.entries, entry.2.isPlain = true := by
    decide +kernel
  have hvalue : (withEvaluatedVariables.evaluate {} (.call {} "none_of" [.var {} "limits", .var {} "within"])
      {}).1.toOption.map Expr.render = some "byte(0x000010) + 2 >= 1 && byte(0x000010) + 2 >= 2" := by decide +kernel
  cases heval : withEvaluatedVariables.evaluate {} (.call {} "none_of" [.var {} "limits", .var {} "within"]) {} with
  | mk result output =>
    rw [heval] at hvalue
    cases result with
    | error error => cases hvalue
    | ok v =>
      refine ⟨v, output, rfl, Option.some.inj hvalue, evaluation_reaches_fixpoints ?_ ?_ (by decide +kernel) heval⟩
      · intro frame hframe name value hfind
        exact Expr.isFixpoint_iff.mpr (hnormal frame hframe _ (Bindings.mem_of_find? hfind))
      · intro name function hfind
        exact hplain _ (Bindings.mem_of_find? hfind)

end Scope

end TriggerScript
