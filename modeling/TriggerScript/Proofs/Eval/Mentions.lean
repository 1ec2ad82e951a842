import TriggerScript.Proofs.Eval.Matching
import TriggerScript.Proofs.Eval.Nesting
import TriggerScript.Proofs.Eval.Resolution

/-!
# What an expression asks for

Evaluation asks its environment for the names in the expression, and for the functions in values that it applies. An
expression that mentions no variable asks for functions only, so two scopes with the same functions answer it alike, as long
as they call the functions of the script alike. If it calls none of them, it has one value in all these scopes.
-/

namespace TriggerScript

/-! ## Environments that answer alike -/

/-- If a node asks for a name, then for an allowed one: a name that is read, or one that is called or may be. -/
def Expr.asksFor (readable callable : String → Bool) : Expr → Bool
  | .var _ name => readable name
  | .call _ name _ | .functionRef _ name => callable name
  | _ => true

/-- An environment that answers only for some names. -/
def Env.among (readable callable : String → Bool) (env : Env) : Env where
  resolve name span :=
    if readable name then env.resolve name span else Run.fail (.evaluation (.unknownVariable name) span)
  call name values span :=
    if callable name then env.call name values span else Run.fail (.evaluation (.unknownFunction name) span)

/-- An environment that answers for the names in a tree makes of it what the whole environment does. -/
theorem Expr.replace_among {readable callable : String → Bool} {e : Expr}
    (h : e.Everywhere fun node => node.asksFor readable callable = true) (env : Env) :
    e.replace (env.among readable callable) = e.replace env := by
  refine Run.matches_eq_iff.mp (matches_replace (h.mono fun node hnode => ?_))
  cases node with
  | var mark name => exact Run.matches_eq_iff.mpr (if_pos hnode)
  | call mark name args => exact fun values _ => Run.matches_eq_iff.mpr (if_pos hnode)
  | _ => trivial

/-! ## Scopes that see the same functions -/

namespace Scope

/-- Whether a name is that of a function. -/
def hasFunction (scope : Scope) (name : String) : Bool :=
  (scope.function? name).isSome || Builtin.isName name

/-- A name calls the same in scopes with the same functions if it is that of a function, or if it is bound alike and no
reference leads to another variable. -/
theorem callee_congr {scope scope' : Scope} {name : String}
    (hfunctions : ∀ name, scope'.function? name = scope.function? name)
    (h : scope.hasFunction name = true ∨ scope'.find? name = scope.find? name ∧
      ∀ mark target, scope.find? name = some (.functionRef mark target) → scope.hasFunction target = true) :
    scope'.callee name = scope.callee name := by
  have hdefined : ∀ {name}, scope.hasFunction name = true → scope'.callee name = scope.callee name := by
    intro name hname
    have hfunction := hfunctions name
    cases hscope : scope.function? name with
    | some function =>
      rw [hscope] at hfunction
      rw [callee, callee, calleeWithin_of_function? _ hscope, calleeWithin_of_function? _ hfunction]
    | none =>
      rw [hscope] at hfunction
      rw [hasFunction, hscope, Builtin.isName] at hname
      obtain ⟨builtin, hbuiltin⟩ := Option.isSome_iff_exists.mp hname
      rw [callee, callee, calleeWithin_of_ofName? _ hscope hbuiltin, calleeWithin_of_ofName? _ hfunction hbuiltin]
  by_cases hname : scope.hasFunction name = true
  · exact hdefined hname
  · obtain ⟨hfind, hreference⟩ := h.resolve_left hname
    obtain ⟨hfunction, hbuiltin⟩ : scope.function? name = none ∧ Builtin.ofName? name = none := by
      simpa [hasFunction, Builtin.isName] using hname
    have hfunction' : scope'.function? name = none := (hfunctions name).trans hfunction
    by_cases hbound : ∃ mark target, scope.find? name = some (.functionRef mark target)
    · obtain ⟨mark, target, hbound⟩ := hbound
      have htarget := hreference mark target hbound
      have hne : target ≠ name := by
        rintro rfl
        exact hname htarget
      have htarget' : scope'.hasFunction target = true := by rwa [hasFunction, hfunctions target]
      rw [callee_of_reference hfunction hbuiltin hbound hne (Bool.or_eq_true_iff.mp htarget),
        callee_of_reference hfunction' hbuiltin (hfind.trans hbound) hne (Bool.or_eq_true_iff.mp htarget'), hdefined htarget]
    · have hno : ∀ mark target, scope.find? name ≠ some (.functionRef mark target) :=
        fun mark target heq => hbound ⟨mark, target, heq⟩
      rw [callee_of_no_reference hfunction hbuiltin hno, callee_of_no_reference hfunction' hbuiltin (by rwa [hfind])]

/-- Two scopes that have the same functions, and no variables under the names that are read. What is called is a function or
nothing. -/
structure SeeAlike (readable callable : String → Bool) (scope scope' : Scope) : Prop where
  functions : ∀ name, scope'.function? name = scope.function? name
  unbound : ∀ name, readable name = true → scope.find? name = none ∧ scope'.find? name = none
  called : ∀ name, callable name = true → scope.hasFunction name = true ∨ readable name = true
  builtin : ∀ name, Builtin.isName name = true → callable name = true
  referred : ∀ name, readable name = true → scope.hasFunction name = true → callable name = true

theorem function?_child (context : Context) (scope : Scope) (name : String) :
    (scope.child context).function? name = scope.function? name := by
  rw [function?, globalFrame_child, function?]

namespace SeeAlike

variable {readable callable : String → Bool} {scope scope' : Scope} (h : SeeAlike readable callable scope scope')
include h

theorem child (context : Context) : SeeAlike readable callable (scope.child context) (scope'.child context) where
  functions name := by rw [function?_child, function?_child, h.functions]
  unbound name := h.unbound name
  called name := by rw [hasFunction, function?_child]; exact h.called name
  builtin := h.builtin
  referred name := by rw [hasFunction, function?_child]; exact h.referred name

/-- A name calls the same in both scopes: a function that has the name, or nothing. -/
theorem callee_eq {name : String} (hname : callable name = true) :
    scope'.callee name = scope.callee name ∧
      ∀ function, scope.callee name = .function function → scope.function? name = some function := by
  have hfunction := (h.called name hname).imp_right (h.unbound name)
  constructor
  · refine callee_congr h.functions (hfunction.imp_right fun hunbound => ⟨hunbound.2.trans hunbound.1.symm, ?_⟩)
    intro mark target hfind
    rw [hunbound.1] at hfind
    cases hfind
  · intro function hcallee
    rw [callee, calleeWithin] at hcallee
    split at hcallee
    · rename_i found hfound
      rw [hfound, Callee.function.inj hcallee]
    · rename_i hnone
      split at hcallee
      · cases hcallee
      · rename_i hbuiltin
        have hundefined : ¬ scope.hasFunction name = true := by simp [hasFunction, hnone, Builtin.isName, hbuiltin]
        rw [(hfunction.resolve_left hundefined).1] at hcallee
        cases hcallee

end SeeAlike

end Scope

/-! ## Environments of such scopes -/

namespace Discipline

/-- Evaluation refers to functions that may be called, and need not meet some errors again. -/
def calling (callable : String → Bool) (exempt : Error → Prop) : Discipline :=
  { references {} (fun name => callable name = true) fun _ => True with exempt }

section Calling

variable {readable callable : String → Bool} {exempt : Error → Prop} {scope scope' : Scope} {caller caller' : Caller}

/-- If all built-in functions may be called, evaluation keeps to functions that may be. -/
theorem lawful_calling (hbuiltin : ∀ name, Builtin.isName name = true → callable name = true) :
    (calling callable exempt).Lawful := by
  have h : (references {} (fun name => callable name = true) fun _ => True).Lawful := by
    refine lawful_references (fun target hdefined => ?_) fun target function hfind => ?_
    · rcases hdefined with hfind | hname
      · cases hfind
      · exact hbuiltin target hname
    · cases hfind
  exact { h with callable := fun hfind => by cases hfind }

/-- Callers that agree on the functions of a scope under names that may be called, wherever they are called from. -/
def CallersAgree (callable : String → Bool) (exempt : Error → Prop) (scope : Scope) (caller caller' : Caller) : Prop :=
  ∀ name function, callable name = true → scope.function? name = some function → ∀ inner inner' values span,
    (calling callable exempt).Agree (calling callable exempt).MadeOption (caller.call inner function values span)
      (caller'.call inner' function values span)

variable (hsee : scope.SeeAlike readable callable scope') (hcallers : CallersAgree callable exempt scope caller caller')
  (hbadge : caller'.badge = caller.badge)
include hsee hcallers hbadge

/-- A name that may be called is called alike if functions are applied to items alike. -/
theorem agree_invokeWith_calling {apply apply' : Scope → String → Expr → Eval (Option Expr)} {name : String}
    (hname : callable name = true) {values : List Expr} (hvalues : ∀ value ∈ values, (calling callable exempt).Made value)
    (happly : ∀ predicate item, callable predicate = true → (calling callable exempt).Made item →
      (calling callable exempt).Agree (calling callable exempt).MadeOption
        (apply (scope.child (.iteration predicate)) predicate item)
        (apply' (scope'.child (.iteration predicate)) predicate item)) (span : Span) :
    (calling callable exempt).Agree (calling callable exempt).MadeOption
      (scope.invokeWith caller apply name values span) (scope'.invokeWith caller' apply' name values span) := by
  have hd : (calling callable exempt).Lawful := lawful_calling hsee.builtin
  obtain ⟨hcallee, hfunction⟩ := hsee.callee_eq hname
  unfold Scope.invokeWith
  rw [hcallee, hbadge]
  cases htarget : scope.callee name with
  | function function => exact hcallers name function hname (hfunction function htarget) scope scope' values span
  | builtin builtin =>
    refine agree_apply hd hvalues fun mark predicate item hmem hitem => ?_
    exact happly predicate item (hvalues _ hmem).root.2 hitem
  | unknown name => exact Run.agree_fail _

/-- The environments of the scopes agree on the names that are read and called. -/
theorem envAgree_among :
    (calling callable exempt).EnvAgree ((scope.env caller).among readable callable)
      ((scope'.env caller').among readable callable) := by
  refine ⟨fun name span => ?_, fun name values span hvalues => ?_⟩
  · cases hname : readable name with
    | false =>
      simp only [Env.among, hname]
      exact Run.agree_fail _
    | true =>
      obtain ⟨hunbound, hunbound'⟩ := hsee.unbound name hname
      simp only [Env.among, hname, if_true, Scope.env_resolve, Scope.resolveWith, hunbound, hunbound', hsee.functions]
      split
      · rename_i hfunction
        exact Run.agree_pure (Expr.everywhere_of_children_nil rfl ⟨rfl, hsee.referred name hname hfunction⟩)
      · exact Run.agree_fail _
  · cases hname : callable name with
    | false =>
      simp only [Env.among, hname]
      exact Run.agree_fail _
    | true =>
      simp only [Env.among, hname, if_true, Scope.env_call]
      refine agree_invokeWith_calling hsee hcallers hbadge hname hvalues (fun predicate item hpredicate hitem => ?_) span
      have hcallers' : CallersAgree callable exempt (scope.child (.iteration predicate)) caller caller' := by
        intro name function hname hfunction
        rw [Scope.function?_child] at hfunction
        exact hcallers name function hname hfunction
      refine agree_invokeWith_calling (hsee.child _) hcallers' hbadge hpredicate
        (List.forall_mem_singleton.mpr hitem) (fun _ _ _ _ => ?_) span
      exact Run.agree_pure madeOption_none

/-- Scopes that answer alike give one value to every tree that asks for such names only. -/
theorem agree_evaluate_calling {e : Expr} (he : e.Everywhere fun node => node.asksFor readable callable = true) :
    (calling callable exempt).Agree (calling callable exempt).Made (e.evaluate (scope.env caller))
      (e.evaluate (scope'.env caller')) := by
  have hwritten : (calling callable exempt).Written e := by
    refine he.mono fun node hnode => ?_
    cases node with
    | functionRef mark name => exact hnode
    | _ => trivial
  have hagree := agree_evaluate (lawful_calling hsee.builtin) (envAgree_among hsee hcallers hbadge) hwritten
  rw [Expr.evaluate, Expr.evaluate, Expr.replace_among he, Expr.replace_among he] at hagree
  exact hagree

end Calling

end Discipline

/-! ## Expressions that call no function of the script -/

namespace Scope

/-- An expression that calls no function of the script: it makes no difference how such functions are called. -/
def CallsNone (badge : String) (scope : Scope) (e : Expr) : Prop :=
  ∀ call call', e.evaluate (scope.env { badge, call }) = e.evaluate (scope.env { badge, call := call' })

/-- Whether a name is neither a variable nor a function of the script. -/
def isFree (scope : Scope) (name : String) : Bool :=
  (scope.find? name).isNone && (scope.function? name).isNone

/-- Where no built-in function is redefined, an expression that names neither a variable nor a function of the script calls
none. -/
theorem callsNone_of_isFree {scope : Scope} {e : Expr}
    (hbuiltin : ∀ name, Builtin.isName name = true → scope.function? name = none)
    (he : e.nodes.all (Expr.asksFor scope.isFree fun name => Builtin.isName name || scope.isFree name) = true)
    (badge : String) : scope.CallsNone badge e := by
  intro call call'
  have hfree : ∀ {name}, scope.isFree name = true → scope.find? name = none ∧ scope.function? name = none := by
    intro name hname
    simpa [isFree] using hname
  have hsee : scope.SeeAlike scope.isFree (fun name => Builtin.isName name || scope.isFree name) scope := by
    refine ⟨fun _ => rfl, fun name hname => ⟨(hfree hname).1, (hfree hname).1⟩, fun name hname => ?_, fun name hname => ?_,
      fun name hname _ => ?_⟩
    · rcases Bool.or_eq_true_iff.mp hname with hname | hname
      · exact .inl (by simp [hasFunction, hname])
      · exact .inr hname
    · simp [hname]
    · simp [hname]
  have hcallers : Discipline.CallersAgree (fun name => Builtin.isName name || scope.isFree name) (fun _ => False) scope
      { badge, call } { badge, call := call' } := by
    intro name function hname hfunction
    have hnone : scope.function? name = none := by
      rcases Bool.or_eq_true_iff.mp hname with hname | hname
      · exact hbuiltin name hname
      · exact (hfree hname).2
    rw [hnone] at hfunction
    cases hfunction
  funext output
  have hagree := Discipline.agree_evaluate_calling hsee hcallers rfl (List.all_eq_true.mp he) output trivial
  rcases hagree.2.2 with hsame | ⟨_, _, hexempt⟩
  · exact hsame
  · exact hexempt.elim

/-- An expression that calls no function of the script has one value in scopes that see alike, however functions are called
from them. Where calls are refused, the two evaluations are equal or the first one meets the refusal; it does not, since it
would meet another refusal as well. -/
theorem evaluate_eq_of_seeAlike {readable callable : String → Bool} {badge : String} {scope scope' : Scope} {e : Expr}
    (hsee : scope.SeeAlike readable callable scope') (hnone : scope.CallsNone badge e)
    (he : e.Everywhere fun node => node.asksFor readable callable = true)
    (call call' : Scope → Function → List Expr → Span → Eval (Option Expr)) :
    e.evaluate (scope.env { badge, call }) = e.evaluate (scope'.env { badge, call := call' }) := by
  have hrefused : ∀ error output, e.evaluate (scope.env { badge, call }) output =
        e.evaluate (scope'.env { badge, call := call' }) output ∨
      (e.evaluate (scope.env { badge, call }) output).1 = .error error := by
    intro error output
    rw [hnone call fun _ _ _ _ => Run.fail error]
    have hcallers : Discipline.CallersAgree callable (· = error) scope { badge, call := fun _ _ _ _ => Run.fail error }
        { badge, call := call' } := by
      intro name function _ _ inner inner' values span output _
      refine ⟨trivial, fun value hvalue => ?_, .inr ⟨error, rfl, rfl⟩⟩
      cases hvalue
    rcases (Discipline.agree_evaluate_calling hsee hcallers rfl he output trivial).2.2 with hsame | ⟨_, herror, rfl⟩
    · exact .inl hsame
    · exact .inr herror
  funext output
  rcases hrefused (.evaluation .missingLeft {}) output with hsame | hfirst
  · exact hsame
  · rcases hrefused (.evaluation .nestedDefinition {}) output with hsame | hsecond
    · exact hsame
    · rw [hfirst] at hsecond
      cases hsecond

end Scope

end TriggerScript
