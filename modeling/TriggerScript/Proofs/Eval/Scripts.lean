import TriggerScript.Proofs.Eval.Resolution

/-!
# Whole scripts that agree

A statement of a script may define a function, so no discipline with a fixed table holds between the statements. Where every
tree is allowed this does not matter: each statement is compared under the functions that are defined when it is reached, and
what one statement keeps, whole scripts keep.
-/

namespace TriggerScript

/-- Runs that agree are the same where the first does not fail with an exempt error. -/
theorem Run.Agree.eq_of_not_exempt {σ α : Type} {exempt : Error → Prop} {inv : σ → Prop} {post : α → Prop}
    {run run' : Run σ α} (h : Run.Agree exempt inv post run run') {s : σ} (hs : inv s)
    (hends : ∀ error, (run s).1 = .error error → ¬ exempt error) : run' s = run s := by
  obtain ⟨_, _, hsame | ⟨error, herror, hexempt⟩⟩ := h s hs
  · exact hsame.symm
  · exact absurd hexempt (hends error herror)

theorem Expr.everywhere_true (e : Expr) : e.Everywhere fun _ => True :=
  fun _ _ => trivial

/-- A property of what has been registered that calls, records and built-in functions keep. -/
structure Output.IsKept (inv : Output → Prop) : Prop where
  record : ∀ {output : Output} (event : Event), inv output → inv (output.record event)
  /-- Built-in functions that apply other functions are left out: what they register, those functions do. -/
  apply : ∀ {badge : String} {apply : String → Expr → Eval (Option Expr)} {builtin : Builtin} {args : Arguments}
    {output : Output}, (∀ joiner, builtin ≠ .join joiner) → inv output → inv (builtin.apply badge apply args output).2

namespace Discipline

/-- Every tree and every name is allowed; only what may be registered is restricted. -/
def unrestricted (table : Bindings Function) (output : Output → Prop) (exempt : Error → Prop) : Discipline where
  table
  written _ := True
  held _ := True
  made _ := True
  operand _ := True
  name _ := True
  output
  exempt

variable {table : Bindings Function} {inv : Output → Prop} {exempt : Error → Prop}

/-- Every function may be called. -/
theorem callable_unrestricted (function : Function) : (unrestricted table inv exempt).Callable function where
  names _ _ := trivial
  defaults _ _ default _ := default.everywhere_true
  body := admissibleBlock_of_forall Expr.everywhere_true (fun _ => trivial) function.body

/-- An invariant that every step of the output keeps is kept by evaluation without restrictions. -/
theorem lawful_unrestricted (h : Output.IsKept inv) : (unrestricted table inv exempt).Lawful where
  made_of_isMade _ := trivial
  made_reference _ := trivial
  made_returned _ := trivial
  made_withMark _ := trivial
  held_of_made _ := trivial
  made_of_held h _ := h
  written_of_held h _ := h
  held_dictionary _ _ := trivial
  operand_of_isOperand _ := trivial
  operand_withMark _ := trivial
  made_invert _ _ := ⟨Expr.everywhere_true _, trivial⟩
  made_logical _ _ _ _ _ := trivial
  callable _ := callable_unrestricted _
  output_called houtput := h.record _ houtput
  output_apply hjoin houtput := h.apply hjoin houtput

/-- Every scope is admitted. -/
theorem admits_unrestricted (scope : Scope) :
    (unrestricted scope.globalFrame.functions inv exempt).Admits scope.depth scope :=
  ⟨rfl, rfl, fun _ _ _ value _ => ⟨trivial, value.everywhere_true⟩⟩

end Discipline

/-- Two ways to find environments agree in every scope, with what has been registered kept. -/
def Scope.EnvsAgree (exempt : Error → Prop) (inv : Output → Prop) (envOf envOf' : Scope → Env) : Prop :=
  ∀ scope, (Discipline.unrestricted scope.globalFrame.functions inv exempt).EnvAgree (envOf scope) (envOf' scope)

/-- With limits on open calls of which one is not below the other, environments agree up to the lower limit. -/
theorem Settings.envsAgree {inv : Output → Prop} {exempt : Error → Prop} (hinv : Output.IsKept inv)
    {settings settings' : Settings} (hbadge : settings.defaultBadge = settings'.defaultBadge)
    (hle : settings.maxCallDepth ≤ settings'.maxCallDepth)
    (hexempt : settings.maxCallDepth ≠ settings'.maxCallDepth →
      ∀ name span, exempt (.evaluation (.depthExceeded name) span)) :
    Scope.EnvsAgree exempt inv (Scope.envUnder settings) (Scope.envUnder settings') := by
  intro scope
  have hd : (Discipline.unrestricted scope.globalFrame.functions inv exempt).Lawful := Discipline.lawful_unrestricted hinv
  refine Discipline.agree_env hd hbadge ?_ (Discipline.admits_unrestricted scope)
  intro inner function values span hinner hfunction hvalues
  unfold Settings.caller
  rw [← hbadge]
  refine Discipline.agree_callWithin hd (Nat.sub_le_sub_right hle _) (fun hne => hexempt ?_) hinner hfunction hvalues
  rintro heq
  rw [heq] at hne
  exact hne rfl

namespace Script

variable {inv : Output → Prop} {exempt : Error → Prop} {envOf envOf' : Scope → Env}

/-- Runs of statements that agree whatever the scope is. -/
abbrev Agree (exempt : Error → Prop) (inv : Output → Prop) {α : Type} (run run' : Exec α) : Prop :=
  Run.Agree exempt (fun activation => inv activation.output) (fun _ => True) run run'

section Statements

variable (hinv : Output.IsKept inv) (henv : Scope.EnvsAgree exempt inv envOf envOf')
include hinv henv

/-- A statement keeps the invariant and runs alike in environments that do. It defines no functions, so these are those of
the scope at hand. -/
theorem agree_exec (s : Stmt) : Agree exempt inv (s.exec envOf) (s.exec envOf') := by
  intro activation houtput
  let d := Discipline.unrestricted activation.scope.globalFrame.functions inv exempt
  have hd : d.Lawful := Discipline.lawful_unrestricted hinv
  have hscopes : ∀ scope, d.Admits activation.scope.depth scope → d.EnvAgree (envOf scope) (envOf' scope) := by
    intro scope hadmits
    have hscope := henv scope
    rwa [hadmits.functions] at hscope
  have hs : d.Admissible s := Discipline.admissible_of_forall Expr.everywhere_true (fun _ => trivial) s
  obtain ⟨hinv', _, hsame⟩ :=
    Discipline.agree_exec hd hscopes hs activation ⟨houtput, Discipline.admits_unrestricted activation.scope⟩
  exact ⟨hinv'.1, fun _ _ => trivial, hsame⟩

/-- A block keeps the invariant and runs alike in environments that do. -/
theorem agree_execBlock (ss : List Stmt) : Agree exempt inv (Stmt.execBlock envOf ss) (Stmt.execBlock envOf' ss) := by
  induction ss with
  | nil => exact Run.agree_pure trivial
  | cons s ss ih =>
    rw [Stmt.execBlock, Stmt.execBlock]
    refine (agree_exec hinv henv s).bind fun result _ => ?_
    cases result with
    | some value => exact Run.agree_pure trivial
    | none => exact ih

omit henv in
/-- The definition of a function keeps the invariant. -/
theorem agree_define (function : Function) : Agree exempt inv (define function) (define function) := by
  unfold define
  refine (Run.agree_refl fun activation houtput => houtput).bind fun scope _ => ?_
  have hdefine : Agree exempt inv (Exec.changeScope (·.define function)) (Exec.changeScope (·.define function)) :=
    Run.agree_modify fun activation houtput => houtput
  split
  · exact Run.agree_fail _
  · split
    · exact Run.agree_fail _
    · dsimp only
      split
      · exact (Run.agree_refl fun activation houtput => hinv.record _ houtput).bind fun _ _ => hdefine
      · exact hdefine

/-- A statement of a script. -/
theorem agree_runStatement (s : Stmt) : Agree exempt inv (runStatement envOf s) (runStatement envOf' s) := by
  cases s with
  | define name parameters body span => exact agree_define hinv _
  | assign | loop | choose | expression =>
    simp only [runStatement]
    refine (agree_exec hinv henv _).bind fun result _ => ?_
    cases result with
    | some value => exact Run.agree_fail _
    | none => exact Run.agree_pure trivial

/-- The statements of a script. -/
theorem agree_runStatements (statements : List Stmt) :
    Agree exempt inv (runStatements envOf statements) (runStatements envOf' statements) := by
  induction statements with
  | nil => exact Run.agree_pure trivial
  | cons s statements ih =>
    rw [runStatements, runStatements]
    exact (agree_runStatement hinv henv s).bind fun _ _ => ih

end Statements

variable {settings settings' : Settings} (hinv : Output.IsKept inv)
  (henv : Scope.EnvsAgree exempt inv (Scope.envUnder settings) (Scope.envUnder settings'))
include hinv henv

/-- A script that has been read. -/
theorem agree_run (statements : List Stmt) :
    Run.Agree exempt inv (fun _ => True) (run settings statements) (run settings' statements) := by
  have hcheck : Run.Agree exempt inv (fun _ => True) checkPresence checkPresence := by
    unfold checkPresence
    refine (Run.agree_refl fun output houtput => houtput).bind fun output _ => ?_
    split
    · exact Run.agree_fail _
    · exact Run.agree_pure trivial
  have hfinish : Run.Agree exempt inv (fun _ => True)
      (do let output ← Run.get; Eval.record (.finished output.achievements.size output.leaderboards.size))
      (do let output ← Run.get; Eval.record (.finished output.achievements.size output.leaderboards.size)) :=
    (Run.agree_refl fun output houtput => houtput).bind fun output _ =>
      Run.agree_modify fun output houtput => hinv.record _ houtput
  refine (?_ : Run.Agree exempt inv (fun _ => True) _ _).bind fun _ _ => hcheck.bind fun _ _ => hfinish
  intro output houtput
  obtain ⟨hout, hpost, hsame⟩ := agree_runStatements hinv henv statements { scope := .global, output } houtput
  refine ⟨hout, hpost, ?_⟩
  rcases hsame with hsame | hexempt
  · left
    simp only [hsame]
  · exact .inr hexempt

/-- A script as it is written, if its header is taken in as well. -/
theorem agree_compile {source : String} (hheader : ∀ output, inv output → inv (Header.read source output)) :
    Run.Agree exempt inv (fun _ => True) (compile settings source) (compile settings' source) := by
  unfold compile
  exact Run.agree_skip fun statements => (agree_run hinv henv statements).bind fun _ _ => Run.agree_modify hheader

end Script

/-! ## The limit on open calls -/

/-- The errors that end a script at the limit on open calls. -/
def Error.ExceedsDepth (error : Error) : Prop :=
  ∃ name span, error = .evaluation (.depthExceeded name) span

namespace Script

/-- The limit on open calls is nothing but a limit: a script that does not end at it runs under a higher one as it did, with
the same result or error, the same output and the same journal. -/
theorem call_depth_only_limits {settings : Settings} {deeper : Nat} (hle : settings.maxCallDepth ≤ deeper) (output : Output) :
    (∀ statements, (∀ error, (run settings statements output).1 = .error error → ¬ error.ExceedsDepth) →
      run { settings with maxCallDepth := deeper } statements output = run settings statements output) ∧
    ∀ source, (∀ error, (compile settings source output).1 = .error error → ¬ error.ExceedsDepth) →
      compile { settings with maxCallDepth := deeper } source output = compile settings source output := by
  have hinv : Output.IsKept fun _ => True := ⟨fun _ _ => trivial, fun _ _ => trivial⟩
  have henv : Scope.EnvsAgree Error.ExceedsDepth (fun _ => True) (Scope.envUnder settings)
      (Scope.envUnder { settings with maxCallDepth := deeper }) :=
    Settings.envsAgree hinv rfl hle fun _ name span => ⟨name, span, rfl⟩
  exact ⟨fun statements hends => (agree_run hinv henv statements).eq_of_not_exempt trivial hends,
    fun source hends => (agree_compile hinv henv fun _ _ => trivial).eq_of_not_exempt trivial hends⟩

/-- A script with two calls inside one another. -/
def nestedCalls : String :=
  "function f(x) => byte(x) == 1 function g(x) => f(x) achievement(\"T\", \"D\", 5, g(16))"

/-- A call inside of a call is refused at a limit of one, and runs alike at all higher limits. -/
theorem call_depth_only_limits_nestedCalls :
    (∃ error, (compile { maxCallDepth := 1 } nestedCalls {}).1 = .error error ∧
      error.message = "Maximum call depth exceeded calling f") ∧
    (compile { maxCallDepth := 2 } nestedCalls {}).2.achievements.size = 1 ∧
    compile { maxCallDepth := 100 } nestedCalls {} = compile { maxCallDepth := 2 } nestedCalls {} := by
  have hlimit : (((compile { maxCallDepth := 1 } nestedCalls {}).1.map fun _ => "").tryCatch
      fun error => .ok error.message).toOption = some "Maximum call depth exceeded calling f" := by decide +kernel
  have hends : (compile { maxCallDepth := 2 } nestedCalls {}).1.toOption = some () := by decide +kernel
  have hle : ({ maxCallDepth := 2 } : Settings).maxCallDepth ≤ 100 := by decide
  refine ⟨?_, by decide +kernel, (call_depth_only_limits hle {}).2 nestedCalls ?_⟩
  · cases hrun : (compile { maxCallDepth := 1 } nestedCalls {}).1 with
    | ok u =>
      rw [hrun] at hlimit
      have hempty : "" = "Maximum call depth exceeded calling f" := Option.some.inj hlimit
      exact absurd hempty (by decide)
    | error error =>
      rw [hrun] at hlimit
      exact ⟨error, rfl, Option.some.inj hlimit⟩
  · intro error herror
    rw [herror] at hends
    cases hends

end Script

end TriggerScript
