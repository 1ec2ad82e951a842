import TriggerScript.Proofs.Eval.Congruence

/-!
# Runs that match

Two runs match if they end alike from related states, and again in related states. Evaluation asks its environment what names
and calls mean, so two environments make runs that match of a tree if they do of the names and calls in it. Nothing is said
here about calls that the tree does not make: a call counts with the values that its arguments have.
-/

namespace TriggerScript

namespace Run

variable {σ α β : Type} {rel : σ → σ → Prop}

/-- Two runs that end alike from related states, and again in related states. -/
def Matches (rel : σ → σ → Prop) (run run' : Run σ α) : Prop :=
  ∀ s s', rel s s' → (run s).1 = (run' s').1 ∧ rel (run s).2 (run' s').2

/-- Runs that match go on to match if what follows does for every result. -/
theorem Matches.bind {run run' : Run σ α} {next next' : α → Run σ β} (h : Matches rel run run')
    (hnext : ∀ a, (∃ s t, run s = (.ok a, t)) → Matches rel (next a) (next' a)) :
    Matches rel (run >>= next) (run' >>= next') := by
  intro s s' hs
  have hrun := h s s' hs
  change (Run.bind run next s).1 = (Run.bind run' next' s').1 ∧
    rel (Run.bind run next s).2 (Run.bind run' next' s').2
  unfold Run.bind
  generalize hfirst : run s = outcome at hrun
  generalize run' s' = outcome' at hrun
  obtain ⟨result, t⟩ := outcome
  obtain ⟨result', t'⟩ := outcome'
  obtain ⟨rfl, ht⟩ : result = result' ∧ rel t t' := hrun
  cases result with
  | ok a => exact hnext a ⟨s, t, hfirst⟩ t t' ht
  | error error => exact ⟨rfl, ht⟩

/-- Runs that match from equal states are equal. -/
theorem matches_eq_iff {run run' : Run σ α} : Matches Eq run run' ↔ run = run' := by
  constructor
  · intro h
    funext s
    exact Prod.ext (h s s rfl).1 (h s s rfl).2
  · rintro rfl s s' rfl
    exact ⟨rfl, rfl⟩

/-- A run that matches itself. -/
abbrev Respects (rel : σ → σ → Prop) (run : Run σ α) : Prop :=
  Matches rel run run

theorem respects_pure (a : α) : Respects rel (Pure.pure a) :=
  fun _ _ hs => ⟨rfl, hs⟩

theorem respects_fail (error : Error) : Respects rel (Run.fail error : Run σ α) :=
  fun _ _ hs => ⟨rfl, hs⟩

/-- A computation without state respects every relation of states. -/
theorem respects_ofExcept (result : Except Error α) : Respects rel (ofExcept result) :=
  fun _ _ hs => ⟨rfl, hs⟩

/-- Runs one after the other respect a relation of states if each of them does. -/
theorem Respects.bind {run : Run σ α} {next : α → Run σ β} (h : Respects rel run)
    (hnext : ∀ a, Respects rel (next a)) : Respects rel (run >>= next) :=
  Matches.bind h fun a _ => hnext a

/-- Changes that keep states related match. -/
theorem matches_modify {change change' : σ → σ} (h : ∀ s s', rel s s' → rel (change s) (change' s')) :
    Matches rel (modify change) (modify change') :=
  fun s s' hs => ⟨rfl, h s s' hs⟩

end Run

/-- To match is a relation that is kept where runs follow one another. -/
theorem Run.isCongruence_matches (rel : Output → Output → Prop) : Eval.IsFullCongruence fun _ => Run.Matches rel where
  admits _ := trivial
  ofExcept _ := Run.respects_ofExcept _
  bind := Run.Matches.bind

/-! ## Expressions -/

namespace Expr

variable {rel : Output → Output → Prop} {env env' : Env}

/-- Whether two environments answer alike what a node asks. A call is asked with values that its arguments have. -/
def AnswersMatch (rel : Output → Output → Prop) (env env' : Env) : Expr → Prop
  | .var mark name => Run.Matches rel (env.resolve name mark.span) (env'.resolve name mark.span)
  | .call mark name args => ∀ values, (∃ output output', evaluateAll env args output = (.ok values, output')) →
    Run.Matches rel (env.call name values mark.span) (env'.call name values mark.span)
  | _ => True

/-- Runs that match do so where a value is required first. -/
theorem matches_ifValue {e : Expr} {run run' : Eval Expr} (h : Run.Matches rel run run') :
    Run.Matches rel (e.ifValue run) (e.ifValue run') :=
  related_ifValue (Run.isCongruence_matches rel) h

/-- Environments that answer alike what the nodes of a tree ask make of it runs that match. -/
theorem matches_replace {e : Expr} (h : e.Everywhere (AnswersMatch rel env env')) :
    Run.Matches rel (e.replace env) (e.replace env') :=
  related_replace (Run.isCongruence_matches rel) (fun _ _ hnode => h _ hnode) fun _ _ _ hnode => h _ hnode

end Expr

end TriggerScript
