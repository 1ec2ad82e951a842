import TriggerScript.Proofs.Eval.Fold
import TriggerScript.Proofs.Expr.Nodes
import TriggerScript.Proofs.RichPresence
import TriggerScript.Script

/-!
# Relations between runs

That two runs end alike, that they register the same, or that they have one value if both have any, are relations between
runs. A relation that is kept where runs follow one another holds of whole evaluations as soon as it holds of what they ask
for: names and calls in expressions, and the few steps that register output in calls. A relation need not admit every
error, as long as it admits those that evaluation makes itself. Here evaluation is gone through once, for all such relations.
-/

namespace TriggerScript

namespace Run

variable {σ α β : Type}

instance : LawfulMonad (Run σ) := by
  refine LawfulMonad.mk' (Run σ) (fun run => ?_) (fun a next => rfl) fun run next next' => ?_
  · funext s
    change Run.bind run (fun a => Run.pure (id a)) s = run s
    unfold Run.bind
    cases run s with
    | mk result s' => cases result <;> rfl
  · funext s
    change Run.bind (Run.bind run next) next' s = Run.bind run (fun a => Run.bind (next a) next') s
    unfold Run.bind
    cases run s with
    | mk result s' => cases result <;> rfl

/-- A run that ends well went through its first step. -/
theorem bind_eq_ok {run : Run σ α} {next : α → Run σ β} {s s' : σ} {b : β}
    (h : (run >>= next) s = (.ok b, s')) : ∃ a between, run s = (.ok a, between) ∧ next a between = (.ok b, s') := by
  change Run.bind run next s = (.ok b, s') at h
  unfold Run.bind at h
  split at h
  · rename_i a between hrun
    exact ⟨a, between, hrun, h⟩
  · cases h

/-- A run goes on with the result of its first step. -/
theorem bind_of_eq_ok {run : Run σ α} {next : α → Run σ β} {s s' : σ} {a : α}
    (h : run s = (.ok a, s')) : (run >>= next) s = next a s' := by
  change Run.bind run next s = _
  rw [Run.bind, h]

/-- Runs in sequence are equal from a state if the first ones are, and the others where these lead. -/
theorem bind_eq_bind {run run' : Run σ α} {next next' : α → Run σ β} {s : σ} (h : run' s = run s)
    (hnext : ∀ a t, run s = (.ok a, t) → next' a t = next a t) : (run' >>= next') s = (run >>= next) s := by
  change Run.bind run' next' s = Run.bind run next s
  unfold Run.bind
  rw [h]
  generalize run s = outcome at hnext
  obtain ⟨result, t⟩ := outcome
  cases result with
  | ok a => exact hnext a t rfl
  | error error => rfl

end Run

namespace Eval

/-- A relation between runs that is kept where runs follow one another, and that computations without a state meet if their
errors are admitted. What evaluation reports by itself is admitted. What follows a run is compared for results that there
are. -/
structure IsCongruence (admitted : Error → Prop) (R : ∀ α : Type, Eval α → Eval α → Prop) : Prop where
  admits : ∀ {error : Error}, error.isRecursion = false → admitted error
  ofExcept : ∀ {α : Type} {result : Except Error α}, (∀ error, result = .error error → admitted error) →
    R α (Run.ofExcept result) (Run.ofExcept result)
  bind : ∀ {α β : Type} {run run' : Eval α} {next next' : α → Eval β}, R α run run' →
    (∀ a, (∃ s t, run s = (.ok a, t)) → R β (next a) (next' a)) → R β (run >>= next) (run' >>= next')

/-- Such a relation that computations without a state meet whatever they report. -/
abbrev IsFullCongruence (R : ∀ α : Type, Eval α → Eval α → Prop) : Prop :=
  IsCongruence (fun _ => True) R

/-- Such a relation that steps meet which register output. -/
structure IsRegisteringCongruence (R : ∀ α : Type, Eval α → Eval α → Prop) : Prop where
  full : IsFullCongruence R
  record : ∀ event, R Unit (record event) (record event)
  addAchievement : ∀ achievement, R Unit (addAchievement achievement) (addAchievement achievement)
  addLeaderboard : ∀ board, R Unit (addLeaderboard board) (addLeaderboard board)
  changePresence : ∀ span (request : RichPresence.Request),
    R Unit (changePresence span request.answer) (changePresence span request.answer)

variable {R : ∀ α : Type, Eval α → Eval α → Prop}

namespace IsCongruence

variable {α : Type} {admitted : Error → Prop} (hR : IsCongruence admitted R)
include hR

/-- A run that only gives a result meets the relation. -/
theorem pure (a : α) : R α (Pure.pure a) (Pure.pure a) := by
  refine hR.ofExcept fun error herror => ?_
  cases herror

/-- A computation that evaluation makes by itself meets the relation. -/
theorem own {result : Except Error α} (h : AvoidsRecursion result) : R α (Run.ofExcept result) (Run.ofExcept result) :=
  hR.ofExcept fun error herror => hR.admits (h error herror)

/-- A failure that evaluation reports by itself meets the relation. -/
theorem fail {error : Error} (h : error.isRecursion = false) : R α (Run.fail error) (Run.fail error) :=
  hR.own (avoidsRecursion_error h)

end IsCongruence

namespace IsFullCongruence

variable {α β : Type} (hR : IsFullCongruence R)
include hR

/-- Every computation without a state meets a full congruence. -/
theorem ofExcept (result : Except Error α) : R α (Run.ofExcept result) (Run.ofExcept result) :=
  IsCongruence.ofExcept hR fun _ _ => trivial

/-- Every failure meets a full congruence. -/
theorem fail (error : Error) : R α (Run.fail error) (Run.fail error) :=
  IsFullCongruence.ofExcept hR (.error error)

/-- A computation without a state may stand in front of runs. -/
theorem ofExcept_bind (result : Except Error α) {next next' : α → Eval β}
    (hnext : ∀ a, result = .ok a → R β (next a) (next' a)) :
    R β (Run.ofExcept result >>= next) (Run.ofExcept result >>= next') := by
  refine hR.bind (IsFullCongruence.ofExcept hR result) fun a ha => ?_
  obtain ⟨s, t, ha⟩ := ha
  exact hnext a (Prod.mk.inj ha).1

end IsFullCongruence

end Eval

open Eval

variable {R : ∀ α : Type, Eval α → Eval α → Prop}

/-! ## Functions that join collections -/

namespace Joiner

variable {joiner : Joiner} {args : Arguments}

/-- The function that items go through is an argument. -/
theorem mem_values_of_predicate? {name : String} (h : predicate? args = .ok (some name)) :
    ∃ mark, Expr.functionRef mark name ∈ args.values := by
  unfold predicate? at h
  split at h
  · cases h
  · rename_i mark name' hvalue
    obtain rfl := Option.some.inj (Except.ok.inj h)
    exact ⟨mark, List.mem_of_getElem? hvalue⟩
  · cases h

/-- Items are joined alike if what is made of each of them is related. -/
theorem related_joinItems (hR : IsFullCongruence R) {element element' : Expr → Eval Expr}
    (h : ∀ item, R _ (element item) (element' item)) (joined? : Option Expr) (items : List Expr) :
    R _ (joiner.joinItems args element joined? items) (joiner.joinItems args element' joined? items) := by
  induction items generalizing joined? with
  | nil => exact hR.pure _
  | cons item items ih =>
    rw [joinItems, joinItems]
    refine hR.bind (h item) fun value _ => hR.ofExcept_bind _ fun next _ => ?_
    cases joined? with
    | none => exact ih _
    | some joined => exact hR.ofExcept_bind _ fun _ _ => ih _

/-- Joined collections are related if the function among the arguments is applied so. -/
theorem related_join (hR : IsFullCongruence R) {apply apply' : String → Expr → Eval (Option Expr)}
    (h : ∀ mark name item, Expr.functionRef mark name ∈ args.values → R _ (apply name item) (apply' name item)) :
    R _ (joiner.join args apply) (joiner.join args apply') := by
  refine hR.ofExcept_bind _ fun _ _ => hR.ofExcept_bind _ fun inputs _ => ?_
  cases inputs.items? with
  | none => exact hR.fail _
  | some items =>
    refine hR.ofExcept_bind _ fun predicate? hpredicate => ?_
    refine hR.bind (related_joinItems hR (fun item => ?_) none items) fun _ _ => hR.pure _
    cases predicate? with
    | none => exact hR.pure _
    | some name =>
      obtain ⟨mark, hmem⟩ := mem_values_of_predicate? hpredicate
      refine hR.bind (h mark name item hmem) fun result _ => ?_
      cases result with
      | none => exact hR.fail _
      | some value => exact hR.pure _

end Joiner

/-! ## Functions that register output -/

namespace Arguments

variable (args : Arguments)

/-- A template is filled in related ways if its parameters are rendered in related ways. -/
theorem related_fillPieces (hR : IsFullCongruence R) {template : String} {parameters : List Expr}
    {render : Expr → Eval String}
    (hrender : ∀ e, R _ (render e) (render e)) (filled : String) (pieces : List Text.Piece) :
    R _ (args.fillPieces template parameters render filled pieces)
      (args.fillPieces template parameters render filled pieces) := by
  induction pieces generalizing filled with
  | nil => exact hR.pure _
  | cons piece pieces ih =>
    cases piece with
    | literal c => exact ih _
    | placeholder digits =>
      rw [fillPieces]
      cases Text.parameter? parameters digits with
      | some parameter => exact hR.bind (hrender parameter) fun _ _ => ih _
      | none => exact hR.fail _
    | malformed => exact hR.fail _

/-- Formatting a text is related to itself, since it only builds trees and texts. -/
theorem related_formatText (hR : IsFullCongruence R) : R _ args.formatText args.formatText := by
  refine hR.ofExcept_bind _ fun _ _ => hR.ofExcept_bind _ fun template _ => ?_
  exact hR.bind (args.related_fillPieces hR (fun _ => hR.ofExcept _) _ _) fun _ _ => hR.pure _

variable (hR : IsRegisteringCongruence R)
include hR

/-- Filling a line of the rich presence is related to itself: what it registers, it requests of the presence. -/
theorem related_presenceLine (index : Nat) : R _ (args.presenceLine index) (args.presenceLine index) := by
  refine hR.full.ofExcept_bind _ fun template _ => args.related_fillPieces hR.full (fun parameter => ?_) _ _
  cases parameter with
  | presence mark name display shown =>
    refine hR.full.ofExcept_bind _ fun _ _ => hR.full.bind ?_ fun _ _ => hR.full.pure _
    cases display with
    | value format => exact hR.changePresence mark.span (.format name format)
    | lookup entries fallback => exact hR.changePresence mark.span (.lookup ⟨name, entries, fallback⟩)
  | _ => exact hR.full.ofExcept _

/-- Registering an achievement is related to itself. -/
theorem related_registerAchievement (badge : String) :
    R _ (args.registerAchievement badge) (args.registerAchievement badge) := by
  unfold registerAchievement
  iterate 7 refine hR.full.ofExcept_bind _ fun _ _ => ?_
  exact hR.addAchievement _

/-- Registering a leaderboard is related to itself. -/
theorem related_registerLeaderboard : R _ args.registerLeaderboard args.registerLeaderboard := by
  unfold registerLeaderboard
  iterate 9 refine hR.full.ofExcept_bind _ fun _ _ => ?_
  exact hR.addLeaderboard _

/-- Setting the display text is related to itself. -/
theorem related_registerDisplay : R _ args.registerDisplay args.registerDisplay := by
  refine hR.full.ofExcept_bind _ fun _ _ => hR.full.bind (args.related_presenceLine hR 0) fun text _ => ?_
  exact hR.changePresence args.span (.display text)

/-- Adding a conditional display is related to itself. -/
theorem related_registerConditionalDisplay : R _ args.registerConditionalDisplay args.registerConditionalDisplay := by
  refine hR.full.ofExcept_bind _ fun _ _ => hR.full.ofExcept_bind _ fun trigger _ => ?_
  exact hR.full.bind (args.related_presenceLine hR 1) fun text _ => hR.changePresence args.span (.conditional trigger text)

end Arguments

/-- Built-in functions are related if the functions among their arguments are applied so. -/
theorem Builtin.related_apply (hR : IsRegisteringCongruence R) {badge : String} {builtin : Builtin} {args : Arguments}
    {apply apply' : String → Expr → Eval (Option Expr)}
    (happly : ∀ mark name item, Expr.functionRef mark name ∈ args.values → R _ (apply name item) (apply' name item)) :
    R _ (builtin.apply badge apply args) (builtin.apply badge apply' args) := by
  cases builtin with
  | join joiner => exact hR.full.bind (Joiner.related_join hR.full happly) fun _ _ => hR.full.pure _
  | format => exact hR.full.bind (args.related_formatText hR.full) fun _ _ => hR.full.pure _
  | achievement => exact hR.full.bind (args.related_registerAchievement hR badge) fun _ _ => hR.full.pure _
  | leaderboard => exact hR.full.bind (args.related_registerLeaderboard hR) fun _ _ => hR.full.pure _
  | display => exact hR.full.bind (args.related_registerDisplay hR) fun _ _ => hR.full.pure _
  | conditionalDisplay => exact hR.full.bind (args.related_registerConditionalDisplay hR) fun _ _ => hR.full.pure _
  | _ => exact hR.full.ofExcept_bind _ fun _ _ => hR.full.pure _

/-! ## Expressions -/

namespace Expr

/-- An entry is missing or its container is none, which no name is to blame for. -/
theorem avoidsRecursion_entryAt (base index container key : Expr) : AvoidsRecursion (entryAt base index container key) := by
  unfold entryAt
  split
  · split
    · exact avoidsRecursion_ok _
    · exact avoidsRecursion_error rfl
  · exact avoidsRecursion_error rfl

/-- A call that gives nothing is an error of its own. -/
theorem avoidsRecursion_resultOf (name : String) (span : Span) (result : Option Expr) :
    AvoidsRecursion (resultOf name span result) := by
  cases result with
  | none => exact avoidsRecursion_error rfl
  | some value => exact avoidsRecursion_ok value

variable {admitted : Error → Prop} (hR : IsCongruence admitted R) {env env' : Env}
include hR

theorem related_ifValue {e : Expr} {run run' : Eval Expr} (h : R _ run run') : R _ (e.ifValue run) (e.ifValue run') := by
  unfold ifValue
  split
  · exact h
  · exact hR.fail rfl

/-- Trees one after the other are replaced alike if each of them is. -/
theorem related_replaceAll {es : List Expr} (h : ∀ e ∈ es, R _ (e.replace env) (e.replace env')) :
    R _ (replaceAll env es) (replaceAll env' es) := by
  induction es with
  | nil => exact hR.pure _
  | cons e es ih =>
    rw [List.forall_mem_cons] at h
    exact hR.bind h.1 fun _ _ => hR.bind (ih h.2) fun _ _ => hR.pure _

/-- Trees one after the other are evaluated alike if each of them is replaced alike. -/
theorem related_evaluateAll {es : List Expr} (h : ∀ e ∈ es, R _ (e.replace env) (e.replace env')) :
    R _ (evaluateAll env es) (evaluateAll env' es) := by
  induction es with
  | nil => exact hR.pure _
  | cons e es ih =>
    rw [List.forall_mem_cons] at h
    exact hR.bind (related_ifValue hR h.1) fun _ _ => hR.bind (ih h.2) fun _ _ => hR.pure _

/-- The entries of a dictionary are evaluated alike if their keys and values are replaced alike. -/
theorem related_evaluateEntries {entries : List (Expr × Expr)}
    (h : ∀ entry ∈ entries, R _ (entry.1.replace env) (entry.1.replace env') ∧
      R _ (entry.2.replace env) (entry.2.replace env'))
    (done : List (Expr × Expr)) : R _ (evaluateEntries env done entries) (evaluateEntries env' done entries) := by
  induction entries generalizing done with
  | nil => exact hR.pure _
  | cons entry entries ih =>
    rw [List.forall_mem_cons] at h
    rw [evaluateEntries, evaluateEntries]
    refine hR.bind (related_ifValue hR h.1.1) fun key _ => ?_
    split
    · exact hR.fail rfl
    · exact hR.bind (related_ifValue hR h.1.2) fun value _ => ih h.2 _

/-- Expressions are related if the answers are to what their nodes ask. A call is asked with values that its arguments have.
-/
theorem related_replace {e : Expr}
    (hvar : ∀ mark name, .var mark name ∈ e.nodes → R _ (env.resolve name mark.span) (env'.resolve name mark.span))
    (hcall : ∀ mark name args, .call mark name args ∈ e.nodes → ∀ values,
      (∃ output output', evaluateAll env args output = (.ok values, output')) →
      R _ (env.call name values mark.span) (env'.call name values mark.span)) :
    R _ (e.replace env) (e.replace env') := by
  induction e using children_induction with
  | h e ih =>
    have hnode : ∀ part ∈ e.children, ∀ node ∈ part.nodes, node ∈ e.nodes := by
      intro part hmem node hnode
      rw [nodes_eq]
      exact List.mem_cons_of_mem _ (List.mem_flatMap.mpr ⟨part, hmem, hnode⟩)
    have hpart : ∀ part ∈ e.children, R _ (part.replace env) (part.replace env') := fun part hmem =>
      ih part hmem (fun mark name h => hvar mark name (hnode part hmem _ h))
        fun mark name args h => hcall mark name args (hnode part hmem _ h)
    have hroot : e ∈ e.nodes := by
      rw [nodes_eq]
      exact List.mem_cons_self
    cases e with
    | var mark name => exact hvar mark name hroot
    | indexed mark base index =>
      rw [replace, replace]
      refine hR.bind (hpart base (by simp [children])) fun container _ => ?_
      exact hR.bind (related_ifValue hR (hpart index (by simp [children]))) fun key _ =>
        hR.own (avoidsRecursion_entryAt base index container key)
    | array mark entries =>
      rw [replace, replace]
      exact hR.bind (related_evaluateAll hR hpart) fun _ _ => hR.pure _
    | dictionary mark entries =>
      rw [replace, replace]
      exact hR.bind (related_evaluateEntries hR (forall_children_dictionary.mp hpart) []) fun _ _ => hR.pure _
    | arithmetic mark op left right =>
      rw [replace, replace]
      refine hR.bind (hpart left (by simp [children])) fun _ _ => hR.bind (hpart right (by simp [children])) fun _ _ => ?_
      exact hR.own (Fold.avoidsRecursion_arithmetic op)
    | comparison mark op left right =>
      rw [replace, replace]
      refine hR.bind (hpart left (by simp [children])) fun _ _ => hR.bind (hpart right (by simp [children])) fun _ _ => ?_
      exact hR.own (Fold.avoidsRecursion_comparison op)
    | logical mark op left? right =>
      rw [replace, replace]
      have hleft : R _ (replaceOption env left?) (replaceOption env' left?) := by
        cases left? with
        | none => exact hR.pure _
        | some left => exact hR.bind (hpart left (by simp [children])) fun _ _ => hR.pure _
      refine hR.bind hleft fun left' _ => hR.bind (hpart right (by simp [children])) fun _ _ => ?_
      exact hR.own (Fold.avoidsRecursion_logical op left')
    | call mark name args =>
      rw [replace, replace]
      refine hR.bind (related_evaluateAll hR hpart) fun values hvalues => ?_
      refine hR.bind (hcall mark name args hroot values hvalues) fun result _ => ?_
      exact hR.own (avoidsRecursion_resultOf name mark.span result)
    | returned mark part | modified mark _ part | presence mark _ _ part =>
      rw [replace, replace]
      exact hR.bind (hpart part (by simp [children])) fun _ _ => hR.pure _
    | tally mark target entries =>
      rw [replace, replace]
      exact hR.bind (related_replaceAll hR hpart) fun _ _ => hR.pure _
    | integer | text | boolean | functionRef | memory | alwaysTrue | alwaysFalse => exact hR.pure _

end Expr

/-- An environment whose answers are related to themselves. -/
structure Env.IsRelated (R : ∀ α : Type, Eval α → Eval α → Prop) (env : Env) : Prop where
  resolve : ∀ name span, R _ (env.resolve name span) (env.resolve name span)
  call : ∀ name values span, R _ (env.call name values span) (env.call name values span)

namespace Env.IsRelated

variable {admitted : Error → Prop} {env : Env} (henv : env.IsRelated R) (hR : IsCongruence admitted R)
include henv hR

/-- In an environment that is related to itself, so is replacing in a tree. -/
theorem replace (e : Expr) : R _ (e.replace env) (e.replace env) :=
  Expr.related_replace hR (fun mark name _ => henv.resolve name mark.span) fun mark name _ _ values _ =>
    henv.call name values mark.span

/-- Evaluation of a tree is related to itself. -/
theorem evaluate (e : Expr) : R _ (e.evaluate env) (e.evaluate env) :=
  Expr.related_ifValue hR (henv.replace hR e)

/-- Evaluation of several trees is related to itself. -/
theorem evaluateAll (es : List Expr) : R _ (Expr.evaluateAll env es) (Expr.evaluateAll env es) :=
  Expr.related_evaluateAll hR fun e _ => henv.replace hR e

/-- Asking whether a tree is true is related to itself. -/
theorem isTrue (e : Expr) : R _ (e.isTrue env) (e.isTrue env) := by
  induction e using Expr.children_induction with
  | h e ih =>
    cases e with
    | logical mark op left? right =>
      have hright := ih right (by simp [Expr.children])
      cases op with
      | not =>
        simp only [Expr.isTrue]
        exact hR.bind hright fun _ _ => hR.pure _
      | and =>
        cases left? with
        | none => exact hR.fail rfl
        | some left =>
          simp only [Expr.isTrue]
          refine hR.bind (ih left (by simp [Expr.children])) fun truth _ => ?_
          cases truth with
          | true => exact hright
          | false => exact hR.pure _
      | or =>
        cases left? with
        | none => exact hR.fail rfl
        | some left =>
          simp only [Expr.isTrue]
          refine hR.bind (ih left (by simp [Expr.children])) fun truth _ => ?_
          cases truth with
          | true => exact hR.pure _
          | false => exact hright
    | boolean | alwaysTrue | alwaysFalse => exact hR.pure _
    | _ =>
      simp only [Expr.isTrue]
      refine hR.bind (henv.replace hR _) fun value _ => ?_
      cases value.constantTruth? with
      | some truth => exact hR.pure _
      | none => exact hR.fail rfl

end Env.IsRelated

/-! ## Statements -/

namespace Exec

variable {α β : Type} {scope : Scope}

/-- A run of statements from a scope, with the scope that it ends in as part of its result. -/
def startingIn (scope : Scope) (run : Exec α) : Eval (α × Scope) := fun output =>
  match run { scope, output } with
  | (.ok a, after) => (.ok (a, after.scope), after.output)
  | (.error error, after) => (.error error, after.output)

/-- A sequence of runs passes the scope of the first on to the second. -/
theorem startingIn_bind (run : Exec α) (next : α → Exec β) :
    (run >>= next).startingIn scope = (run.startingIn scope >>= fun result => (next result.1).startingIn result.2) := by
  funext output
  change startingIn scope (Run.bind run next) output = Run.bind _ _ output
  unfold startingIn Run.bind
  dsimp only
  cases run { scope, output } with
  | mk result after => cases result <;> rfl

/-- An evaluation leaves the scope as it is. -/
theorem startingIn_eval (run : Scope → Eval α) :
    (eval run).startingIn scope = (run scope >>= fun a => pure (a, scope)) := by
  funext output
  change startingIn scope (eval run) output = Run.bind _ _ output
  unfold startingIn Run.bind eval
  dsimp only
  cases run scope output with
  | mk result after => cases result <;> rfl

/-- A last change of the scope comes behind a run that does not fail. -/
theorem startingIn_andFinally (run : Exec α) (change : Scope → Scope) :
    startingIn scope (run.andFinally fun activation => { activation with scope := change activation.scope }) =
      (run.startingIn scope >>= fun result => pure (result.1, change result.2)) := by
  funext output
  change startingIn scope (Run.andFinally run _) output = Run.bind _ _ output
  unfold startingIn Run.bind Run.andFinally
  dsimp only
  cases run { scope, output } with
  | mk result after => cases result <;> rfl

/-- A run of statements that is related to itself from every scope. -/
def IsRelated (R : ∀ α : Type, Eval α → Eval α → Prop) (run : Exec α) : Prop :=
  ∀ scope, R _ (run.startingIn scope) (run.startingIn scope)

variable (hR : IsFullCongruence R)
include hR

theorem isRelated_pure (a : α) : IsRelated R (pure a) :=
  fun scope => hR.pure (a, scope)

theorem isRelated_fail (error : Error) : IsRelated R (Run.fail error : Exec α) :=
  fun _ => hR.fail error

theorem isRelated_changeScope (change : Scope → Scope) : IsRelated R (changeScope change) :=
  fun scope => hR.pure ((), change scope)

/-- Looking at the scope is related to itself. -/
theorem isRelated_scope : IsRelated R Exec.scope :=
  fun scope => hR.pure (scope, scope)

/-- An evaluation inside of a statement is related to itself if it is in every scope. -/
theorem isRelated_eval {run : Scope → Eval α} (h : ∀ scope, R _ (run scope) (run scope)) : IsRelated R (eval run) := by
  intro scope
  rw [startingIn_eval]
  exact hR.bind (h scope) fun a _ => hR.pure _

theorem isRelated_ofExcept (result : Except Error α) : IsRelated R (Run.ofExcept result : Exec α) := by
  cases result with
  | ok a => exact isRelated_pure hR a
  | error error => exact isRelated_fail hR error

/-- Runs of statements are related to themselves along sequences. -/
theorem IsRelated.bind {run : Exec α} {next : α → Exec β} (hrun : IsRelated R run) (hnext : ∀ a, IsRelated R (next a)) :
    IsRelated R (run >>= next) := by
  intro scope
  rw [startingIn_bind]
  exact hR.bind (hrun scope) fun result _ => hnext result.1 result.2

variable {envOf : Scope → Env} (henv : ∀ scope, (envOf scope).IsRelated R)

include henv in
/-- An assignment is related to itself: it only evaluates its indices and stores a value. -/
theorem isRelated_assign (name : String) (indices : List Expr) (value : Expr) :
    IsRelated R (assign envOf name indices value) := by
  unfold assign
  split
  · exact isRelated_changeScope hR _
  · refine (isRelated_eval hR fun scope => (henv scope).evaluateAll hR indices).bind hR fun keys => ?_
    refine (isRelated_scope hR).bind hR fun scope => ?_
    cases scope.find? name with
    | none => exact isRelated_fail hR _
    | some container => exact (isRelated_ofExcept hR _).bind hR fun _ => isRelated_changeScope hR _

/-- A loop over items is related to itself if its body is. -/
theorem isRelated_forItems {name : String} {body : Exec (Option Expr)} (hbody : IsRelated R body) (items : List Expr) :
    IsRelated R (forItems name body items) := by
  induction items with
  | nil => exact isRelated_pure hR none
  | cons item items ih =>
    rw [forItems]
    refine (isRelated_changeScope hR _).bind hR fun _ => hbody.bind hR fun result => ?_
    cases result with
    | some value => exact isRelated_pure hR _
    | none => exact ih

/-- A loop that binds its variable as before at the end is related to itself if its body is. -/
theorem isRelated_forEach {name : String} {items : List Expr} {body : Exec (Option Expr)} (hbody : IsRelated R body) :
    IsRelated R (forEach name items body) := by
  unfold forEach
  refine (isRelated_scope hR).bind hR fun before => (isRelated_changeScope hR _).bind hR fun _ scope => ?_
  rw [startingIn_andFinally]
  exact hR.bind (isRelated_forItems hR hbody items scope) fun _ _ => hR.pure _

end Exec

namespace Stmt

variable {envOf : Scope → Env}

mutual

/-- A statement is related to itself in environments that are. -/
theorem isRelated_exec (hR : IsFullCongruence R) (henv : ∀ scope, (envOf scope).IsRelated R) :
    ∀ s : Stmt, Exec.IsRelated R (s.exec envOf)
  | .assign name indices value => by
    simp only [exec]
    refine (Exec.isRelated_eval hR fun scope => (henv scope).evaluate hR value).bind hR fun value => ?_
    exact (Exec.isRelated_assign hR henv name indices value).bind hR fun _ => Exec.isRelated_pure hR none
  | .define .. => Exec.isRelated_fail hR _
  | .loop name collection body => by
    simp only [exec]
    split
    · exact Exec.isRelated_fail hR _
    · refine (Exec.isRelated_eval hR fun scope => (henv scope).evaluate hR collection).bind hR fun collected => ?_
      cases collected.items? with
      | none => exact Exec.isRelated_fail hR _
      | some items => exact Exec.isRelated_forEach hR (isRelated_execBlock hR henv body)
  | .choose condition yes no => by
    simp only [exec]
    refine (Exec.isRelated_eval hR fun scope => (henv scope).isTrue hR condition).bind hR fun truth => ?_
    cases truth with
    | true => exact isRelated_execBlock hR henv yes
    | false => exact isRelated_execBlock hR henv no
  | .expression e => by
    cases e with
    | returned mark value =>
      simp only [exec]
      refine (Exec.isRelated_eval hR fun scope => (henv scope).evaluate hR value).bind hR fun _ => ?_
      exact Exec.isRelated_pure hR _
    | call mark name args =>
      simp only [exec]
      refine (Exec.isRelated_eval hR fun scope => (henv scope).evaluateAll hR args).bind hR fun values => ?_
      refine (Exec.isRelated_eval hR fun scope => (henv scope).call name values mark.span).bind hR fun _ => ?_
      exact Exec.isRelated_pure hR none
    | _ => exact Exec.isRelated_fail hR _

/-- A block of statements is related to itself in environments that are. -/
theorem isRelated_execBlock (hR : IsFullCongruence R) (henv : ∀ scope, (envOf scope).IsRelated R) :
    ∀ ss : List Stmt, Exec.IsRelated R (execBlock envOf ss)
  | [] => Exec.isRelated_pure hR none
  | s :: ss => by
    rw [execBlock]
    refine (isRelated_exec hR henv s).bind hR fun result => ?_
    cases result with
    | some value => exact Exec.isRelated_pure hR _
    | none => exact isRelated_execBlock hR henv ss

end

end Stmt

/-! ## Functions and scopes -/

namespace Function

variable {envOf : Scope → Env}

/-- Working out the defaults of a call is related to itself in environments that are. -/
theorem related_evaluateDefaults (hR : IsFullCongruence R) (henv : ∀ scope, (envOf scope).IsRelated R)
    (defaulted : List (String × Span)) (scope : Scope) :
    R _ (evaluateDefaults envOf defaulted scope) (evaluateDefaults envOf defaulted scope) := by
  induction defaulted generalizing scope with
  | nil => exact hR.pure _
  | cons entry defaulted ih => exact hR.bind ((henv scope).evaluate hR _) fun _ _ => ih _

/-- The body of a function, run in a scope. -/
theorem related_body (hR : IsFullCongruence R) (henv : ∀ scope, (envOf scope).IsRelated R) (body : List Stmt)
    (inner : Scope) :
    R _ (fun output => ((Stmt.execBlock envOf body { scope := inner, output }).1,
          (Stmt.execBlock envOf body { scope := inner, output }).2.output))
      fun output => ((Stmt.execBlock envOf body { scope := inner, output }).1,
        (Stmt.execBlock envOf body { scope := inner, output }).2.output) := by
  have hbody : (fun output => ((Stmt.execBlock envOf body { scope := inner, output }).1,
        (Stmt.execBlock envOf body { scope := inner, output }).2.output)) =
      ((Stmt.execBlock envOf body).startingIn inner >>= fun result => pure result.1 : Eval (Option Expr)) := by
    funext output
    change _ = Run.bind _ _ output
    unfold Exec.startingIn Run.bind
    dsimp only
    cases Stmt.execBlock envOf body { scope := inner, output } with
    | mk result after => cases result <;> rfl
  rw [hbody]
  exact hR.bind (Stmt.isRelated_execBlock hR henv body inner) fun _ _ => hR.pure _

/-- A function does not see where it is called from: all that is left of its caller is the depth of calls, and the event in
the journal. -/
theorem related_run (hR : IsFullCongruence R) (henv : ∀ scope, (envOf scope).IsRelated R) {scope scope' : Scope}
    (hglobal : scope'.globalFrame = scope.globalFrame) (hdepth : scope'.depth = scope.depth) (function : Function)
    {values : List Expr} (span : Span)
    (hrecord : R _ (Eval.record (.called scope.frame.context function.name values.length))
      (Eval.record (.called scope'.frame.context function.name values.length))) :
    R _ (function.run envOf scope values span) (function.run envOf scope' values span) := by
  have hcall : scope'.call function.name span = scope.call function.name span := by
    rw [Scope.call, Scope.call, hglobal, hdepth]
  unfold run
  rw [hcall]
  split
  · exact hR.fail _
  · refine hR.bind hrecord fun _ _ => hR.ofExcept_bind _ fun bound _ => ?_
    exact hR.bind (related_evaluateDefaults hR henv _ _) fun inner _ => related_body hR henv function.body inner

end Function

namespace Scope

/-- A way of calling functions that is related to itself. -/
abbrev CallsAreRelated (R : ∀ α : Type, Eval α → Eval α → Prop) (caller : Caller) : Prop :=
  ∀ scope function values span, R _ (caller.call scope function values span) (caller.call scope function values span)

variable {caller : Caller}

/-- A name is resolved in related ways if the value that is still to be worked out is. -/
theorem related_resolveWith (hR : IsFullCongruence R) {workOut : Scope → Expr → Eval Expr}
    (h : ∀ inner e, R _ (workOut inner e) (workOut inner e)) (scope : Scope) (name : String) (span : Span) :
    R _ (scope.resolveWith workOut name span) (scope.resolveWith workOut name span) := by
  unfold resolveWith
  cases scope.find? name with
  | none =>
    dsimp only
    split
    · exact hR.pure _
    · exact hR.fail _
  | some value =>
    dsimp only
    split
    · exact hR.pure _
    · split
      · exact hR.fail _
      · exact h _ _

variable (hR : IsRegisteringCongruence R)
include hR

/-- A name is called in related ways if functions of the script are called, and applied to items, in related ways. -/
theorem related_invokeWith (hcaller : CallsAreRelated R caller) {apply : Scope → String → Expr → Eval (Option Expr)}
    (happly : ∀ inner name item, R _ (apply inner name item) (apply inner name item)) (scope : Scope) (name : String)
    (values : List Expr) (span : Span) :
    R _ (scope.invokeWith caller apply name values span) (scope.invokeWith caller apply name values span) := by
  unfold invokeWith
  cases scope.callee name with
  | function function => exact hcaller scope function values span
  | builtin builtin => exact Builtin.related_apply hR fun _ name item _ => happly _ name item
  | unknown name => exact hR.full.fail _

/-- A name is called in related ways also if it is applied to items in the same way. -/
theorem related_invoke (hcaller : CallsAreRelated R caller) (scope : Scope) (name : String) (values : List Expr)
    (span : Span) :
    R _ (scope.invoke caller name values span) (scope.invoke caller name values span) := by
  refine related_invokeWith hR hcaller (fun inner name item => ?_) scope name values span
  exact related_invokeWith hR hcaller (fun _ _ _ => hR.full.pure _) inner name [item] span

/-- The environments of scopes answer as the relation wants if functions are called so. -/
theorem isRelated_env (hcaller : CallsAreRelated R caller) (scope : Scope) : (scope.env caller).IsRelated R := by
  have hwithin : ∀ bound scope, (envWithin caller bound scope).IsRelated R := by
    intro bound
    induction bound with
    | zero =>
      intro scope
      simp only [envWithin]
      refine ⟨fun name span => ?_, related_invoke hR hcaller scope⟩
      dsimp only
      exact related_resolveWith hR.full (fun _ _ => hR.full.fail _) scope name span
    | succ bound ih =>
      intro scope
      simp only [envWithin]
      refine ⟨fun name span => ?_, related_invoke hR hcaller scope⟩
      dsimp only
      exact related_resolveWith hR.full (fun inner e => (ih inner).replace hR.full e) scope name span
  exact hwithin _ scope

end Scope

/-- Functions are called as the relation wants. -/
theorem Function.related_callWithin (hR : IsRegisteringCongruence R) (badge : String) (bound : Nat) :
    Scope.CallsAreRelated R { badge, call := callWithin badge bound } := by
  induction bound with
  | zero => exact fun _ _ _ _ => hR.full.fail _
  | succ bound ih =>
    exact fun _ function _ span => related_run hR.full (fun inner => Scope.isRelated_env hR ih inner) rfl rfl
      function span (hR.record _)

/-- Under any settings, evaluation is related to itself. -/
theorem Scope.isRelated_envUnder (hR : IsRegisteringCongruence R) (settings : Settings) (scope : Scope) :
    (scope.envUnder settings).IsRelated R :=
  isRelated_env hR (Function.related_callWithin hR settings.defaultBadge _) scope

end TriggerScript
