import TriggerScript.Proofs.Eval.Matching
import TriggerScript.Script

/-!
# The journal is never read

Evaluation registers output and keeps a journal. What it gives and what it registers does not depend on the journal: runs
from outputs that differ in their journals only end alike, in outputs that again differ in their journals only.
-/

namespace TriggerScript

/-- What has been registered, without the journal. -/
def Output.registered (output : Output) : Output :=
  { output with journal := #[] }

/-- Outputs with the same entries differ in their journals only. -/
theorem Output.exists_journal {output output' : Output} (h : output.registered = output'.registered) :
    ∃ journal, output' = { output with journal } := by
  refine ⟨output'.journal, ?_⟩
  cases output
  cases output'
  simp only [Output.registered, Output.mk.injEq, and_true] at h
  obtain ⟨rfl, rfl, rfl, rfl, rfl⟩ := h
  rfl

namespace Eval

variable {α β : Type}

/-- Two runs that end alike and register the same, from outputs that differ in their journals only. -/
abbrev Alike (run run' : Eval α) : Prop :=
  Run.Matches (fun output output' => output.registered = output'.registered) run run'

/-- A run that does not read the journal. -/
abbrev IgnoresJournal (run : Eval α) : Prop :=
  Run.Respects (fun output output' => output.registered = output'.registered) run

/-- Recording an event does not look at the events before it. -/
theorem ignoresJournal_record (event : Event) : IgnoresJournal (record event) :=
  Run.matches_modify fun _ _ h => h

/-- An achievement is registered without looking at the journal. -/
theorem ignoresJournal_addAchievement (achievement : Achievement) : IgnoresJournal (addAchievement achievement) := by
  refine (ignoresJournal_record _).bind fun _ => Run.matches_modify fun output output' h => ?_
  obtain ⟨journal, rfl⟩ := Output.exists_journal h
  rfl

/-- A leaderboard is registered without looking at the journal. -/
theorem ignoresJournal_addLeaderboard (board : Leaderboard) : IgnoresJournal (addLeaderboard board) := by
  refine (ignoresJournal_record _).bind fun _ => Run.matches_modify fun output output' h => ?_
  obtain ⟨journal, rfl⟩ := Output.exists_journal h
  rfl

/-- The rich presence is changed without looking at the journal. -/
theorem ignoresJournal_changePresence (span : Span) (change : RichPresence → Except PresenceFault Unit × RichPresence) :
    IgnoresJournal (changePresence span change) := by
  intro output output' h
  obtain ⟨journal, rfl⟩ := Output.exists_journal h
  unfold changePresence
  dsimp only
  cases change output.presence with
  | mk result presence =>
    cases result with
    | error fault => exact ⟨rfl, rfl⟩
    | ok _ => exact ⟨rfl, rfl⟩

end Eval

/-- Runs that are alike are kept alike by all steps of evaluation. -/
theorem Eval.isRegisteringCongruence_alike : Eval.IsRegisteringCongruence fun _ => Eval.Alike where
  full := Run.isCongruence_matches _
  record := ignoresJournal_record
  addAchievement := ignoresJournal_addAchievement
  addLeaderboard := ignoresJournal_addLeaderboard
  changePresence span request := ignoresJournal_changePresence span request.answer

/-- Built-in functions are alike if the functions among their arguments are applied alike. -/
theorem Builtin.alike_apply {badge : String} {builtin : Builtin} {args : Arguments}
    {apply apply' : String → Expr → Eval (Option Expr)}
    (happly : ∀ mark name item, Expr.functionRef mark name ∈ args.values → Eval.Alike (apply name item) (apply' name item)) :
    Eval.Alike (builtin.apply badge apply args) (builtin.apply badge apply' args) :=
  related_apply Eval.isRegisteringCongruence_alike happly

/-- An environment whose answers do not depend on the journal. -/
structure Env.IgnoresJournal (env : Env) : Prop where
  resolve : ∀ name span, Eval.IgnoresJournal (env.resolve name span)
  call : ∀ name values span, Eval.IgnoresJournal (env.call name values span)

/-- An environment ignores the journal exactly if each of its answers is alike to itself. -/
theorem Env.ignoresJournal_iff {env : Env} : env.IgnoresJournal ↔ env.IsRelated fun _ => Eval.Alike :=
  ⟨fun h => ⟨h.resolve, h.call⟩, fun h => ⟨h.resolve, h.call⟩⟩

namespace Expr

variable {env : Env}

/-- Expressions do not read the journal where names and calls do not. -/
theorem ignoresJournal_replace (henv : env.IgnoresJournal) (e : Expr) : Eval.IgnoresJournal (e.replace env) :=
  (Env.ignoresJournal_iff.mp henv).replace Eval.isRegisteringCongruence_alike.full e

/-- Trees are evaluated without looking at the journal if each of them is replaced so. -/
theorem ignoresJournal_evaluateAll {es : List Expr} (h : ∀ e ∈ es, Eval.IgnoresJournal (e.replace env)) :
    Eval.IgnoresJournal (evaluateAll env es) :=
  related_evaluateAll Eval.isRegisteringCongruence_alike.full h

/-- In an environment that ignores the journal, evaluation does. -/
theorem ignoresJournal_evaluate (henv : env.IgnoresJournal) (e : Expr) : Eval.IgnoresJournal (e.evaluate env) :=
  matches_ifValue (ignoresJournal_replace henv e)

end Expr

namespace Function

variable {envOf : Scope → Env}

/-- The body of a function, run in a scope. -/
theorem ignoresJournal_body (henv : ∀ scope, (envOf scope).IgnoresJournal) (body : List Stmt) (inner : Scope) :
    Eval.IgnoresJournal fun output =>
      ((Stmt.execBlock envOf body { scope := inner, output }).1,
        (Stmt.execBlock envOf body { scope := inner, output }).2.output) :=
  related_body Eval.isRegisteringCongruence_alike.full (fun scope => Env.ignoresJournal_iff.mp (henv scope)) body inner

/-- Only the event in the journal tells where a function is called from. -/
theorem alike_run (henv : ∀ scope, (envOf scope).IgnoresJournal) {scope scope' : Scope}
    (hglobal : scope'.globalFrame = scope.globalFrame) (hdepth : scope'.depth = scope.depth) (function : Function)
    (values : List Expr) (span : Span) :
    Eval.Alike (function.run envOf scope values span) (function.run envOf scope' values span) :=
  related_run Eval.isRegisteringCongruence_alike.full (fun scope => Env.ignoresJournal_iff.mp (henv scope)) hglobal
    hdepth function span (Run.matches_modify fun _ _ h => h)

/-- A function runs without looking at the journal in environments that ignore it. -/
theorem ignoresJournal_run (henv : ∀ scope, (envOf scope).IgnoresJournal) (scope : Scope) (function : Function)
    (values : List Expr) (span : Span) : Eval.IgnoresJournal (function.run envOf scope values span) :=
  alike_run henv rfl rfl function values span

end Function

namespace Scope

/-- A way of calling functions that does not depend on the journal. -/
abbrev CallsIgnoreJournal (caller : Caller) : Prop :=
  ∀ scope function values span, Eval.IgnoresJournal (caller.call scope function values span)

/-- The environment of a scope ignores the journal if calls of functions do. -/
theorem ignoresJournal_env {caller : Caller} (hcaller : CallsIgnoreJournal caller) (scope : Scope) :
    (scope.env caller).IgnoresJournal :=
  Env.ignoresJournal_iff.mpr (isRelated_env Eval.isRegisteringCongruence_alike hcaller scope)

end Scope

namespace Function

/-- Functions are called without looking at the journal, however deep calls may be nested. -/
theorem ignoresJournal_callWithin (badge : String) (bound : Nat) (scope : Scope) (function : Function)
    (values : List Expr) (span : Span) : Eval.IgnoresJournal (callWithin badge bound scope function values span) :=
  related_callWithin Eval.isRegisteringCongruence_alike badge bound scope function values span

/-- Functions are called alike from scopes with the same global frame and depth of calls. -/
theorem alike_callWithin (badge : String) (bound : Nat) {scope scope' : Scope}
    (hglobal : scope'.globalFrame = scope.globalFrame) (hdepth : scope'.depth = scope.depth) (function : Function)
    (values : List Expr) (span : Span) :
    Eval.Alike (callWithin badge bound scope function values span) (callWithin badge bound scope' function values span) := by
  cases bound with
  | zero => exact Run.respects_fail _
  | succ bound =>
    have hcalls : Scope.CallsIgnoreJournal { badge, call := callWithin badge bound } := ignoresJournal_callWithin badge bound
    exact alike_run (Scope.ignoresJournal_env hcalls) hglobal hdepth function values span

end Function

/-- Under any settings, evaluation does not read the journal. -/
theorem Scope.ignoresJournal_envUnder (settings : Settings) (scope : Scope) : (scope.envUnder settings).IgnoresJournal :=
  ignoresJournal_env (Function.ignoresJournal_callWithin settings.defaultBadge _) scope

end TriggerScript
