import TriggerScript.Proofs.Eval.Nesting
import TriggerScript.Proofs.Eval.Resolution
import TriggerScript.Proofs.Stmt.Source

/-!
# Every script ends

A script binds only names that its statements spell, and its variables refer only to functions that are defined. Each
statement keeps this, so at every statement evaluation nests no deeper than these names and the limit on open calls allow.
-/

namespace TriggerScript

mutual

/-- The names that a statement may bind to values, with those bound in its blocks and the parameters of its functions. -/
def Stmt.boundNames : Stmt → List String
  | .assign name _ _ => [name]
  | .define _ parameters body _ => parameters.map (·.name) ++ Stmt.blockBoundNames body
  | .loop name _ body => name :: Stmt.blockBoundNames body
  | .choose _ yes no => Stmt.blockBoundNames yes ++ Stmt.blockBoundNames no
  | .expression _ => []

/-- The names that the statements of a block may bind to values. -/
def Stmt.blockBoundNames : List Stmt → List String
  | [] => []
  | s :: ss => s.boundNames ++ Stmt.blockBoundNames ss

end

/-- A tree without references refers to allowed functions only, whichever are allowed. -/
theorem Expr.IsReferenceFree.refersTo {e : Expr} (h : e.IsReferenceFree) (allowed : String → Prop) :
    e.Everywhere (RefersTo allowed) :=
  h.mono fun _ hnode => hnode.mono fun _ hfalse => hfalse.elim

/-- A statement without references to functions that binds some names only. -/
def Stmt.IsPlainIn (names : List String) (s : Stmt) : Prop :=
  s.All Expr.IsReferenceFree ∧ s.boundNames ⊆ names

/-- A function that is defined by such a statement. -/
def Function.IsPlainIn (names : List String) (function : Function) : Prop :=
  (Stmt.define function.name function.parameters function.body function.span).IsPlainIn names

namespace Discipline

/-- In a script, references name what is defined, and variables are called by some names. -/
def script (table : Bindings Function) (names : List String) : Discipline :=
  references table (fun target => (table.find? target).isSome = true ∨ Builtin.isName target = true) (· ∈ names)

variable {table : Bindings Function} {names : List String}

mutual

/-- A statement is admissible if its expressions meet a condition under which they may be written, and its names may be
bound. -/
theorem admissible_of_all {d : Discipline} {p : Expr → Prop} (hwritten : ∀ e, p e → d.Written e) :
    ∀ {s : Stmt}, s.All p → (∀ name ∈ s.boundNames, d.name name) → d.Admissible s
  | .assign name indices value, h, hnames =>
    ⟨hnames name List.mem_cons_self, fun index hmem => hwritten index (h.1 index hmem), hwritten value h.2⟩
  | .define .., _, _ => trivial
  | .loop name collection body, h, hnames => by
    rw [Stmt.boundNames, List.forall_mem_cons] at hnames
    exact ⟨hnames.1, hwritten collection h.1, admissibleBlock_of_all hwritten h.2 hnames.2⟩
  | .choose condition yes no, h, hnames => by
    rw [Stmt.boundNames, List.forall_mem_append] at hnames
    exact ⟨hwritten condition h.1, admissibleBlock_of_all hwritten h.2.1 hnames.1,
      admissibleBlock_of_all hwritten h.2.2 hnames.2⟩
  | .expression e, h, _ => by
    have he := hwritten e h
    cases e with
    | returned mark value => exact he.part (by simp [Expr.children])
    | call mark name args => exact fun arg hmem => he.part hmem
    | _ => trivial

/-- A block is admissible if its expressions meet a condition under which they may be written. -/
theorem admissibleBlock_of_all {d : Discipline} {p : Expr → Prop} (hwritten : ∀ e, p e → d.Written e) :
    ∀ {ss : List Stmt}, Stmt.AllBlock p ss → (∀ name ∈ Stmt.blockBoundNames ss, d.name name) → d.AdmissibleBlock ss
  | [], _, _ => trivial
  | s :: ss, h, hnames => by
    rw [Stmt.blockBoundNames, List.forall_mem_append] at hnames
    exact ⟨admissible_of_all hwritten h.1 hnames.1, admissibleBlock_of_all hwritten h.2 hnames.2⟩

end

/-- A function may be called if its expressions may be written and bound, and its names may be bound. -/
theorem callable_of_all {d : Discipline} {p : Expr → Prop} (hwritten : ∀ e, p e → d.Written e)
    (hheld : ∀ e, p e → d.Held e) {function : Function}
    (h : (Stmt.define function.name function.parameters function.body function.span).All p)
    (hnames : ∀ name ∈ (Stmt.define function.name function.parameters function.body function.span).boundNames, d.name name) :
    d.Callable function := by
  rw [Stmt.boundNames, List.forall_mem_append] at hnames
  refine ⟨fun parameter hmem => hnames.1 _ (List.mem_map_of_mem hmem), ?_, admissibleBlock_of_all hwritten h.2 hnames.2⟩
  exact fun parameter hmem default hdefault => hheld default (h.1 parameter hmem default hdefault)

/-- A statement without references that binds some names only is admissible in a script. -/
theorem admissible_script {s : Stmt} (h : s.All Expr.IsReferenceFree) (hnames : s.boundNames ⊆ names) :
    (script table names).Admissible s :=
  admissible_of_all (fun _ he => Expr.IsReferenceFree.refersTo he _) h fun _ hname => hnames hname

/-- A function without references that binds some names only may be called in a script. -/
theorem callable_script {function : Function} (h : function.IsPlainIn names) : (script table names).Callable function :=
  callable_of_all (fun _ he => Expr.IsReferenceFree.refersTo he _) (fun _ he => Expr.IsReferenceFree.refersTo he _) h.1
    fun _ hname => h.2 hname

/-- If all functions of the script are such, evaluation keeps to them. -/
theorem lawful_script (h : ∀ name function, table.find? name = some function → function.IsPlainIn names) :
    (script table names).Lawful :=
  lawful_references (fun _ hdefined => hdefined) fun name function hfind => callable_script (h name function hfind)

/-- In a script, values refer to what is defined only. -/
theorem closed_script : (script table names).Closed names where
  defined h := h
  names h := h

end Discipline

/-! ## The statements of a script -/

namespace Scope

variable {scope : Scope} {function found : Function} {name : String}

/-- A defined function is the only one that is new. -/
theorem of_function?_define
    (h : (scope.define function).function? name = some found) : found = function ∨ scope.function? name = some found := by
  unfold function? globalFrame define at h
  unfold function? globalFrame
  cases hlast : scope.outer.getLast? with
  | some frame =>
    rw [hlast] at h
    exact .inr h
  | none =>
    rw [hlast] at h
    simp only [Option.getD_none, Bindings.find?_insert] at h
    split at h
    · exact .inl (Option.some.inj h).symm
    · exact .inr h

/-- Functions that were defined stay defined. -/
theorem isSome_function?_define (h : (scope.function? name).isSome = true) :
    ((scope.define function).function? name).isSome = true := by
  unfold function? globalFrame at h
  unfold function? globalFrame define
  cases hlast : scope.outer.getLast? with
  | some frame =>
    rw [hlast] at h
    exact h
  | none =>
    rw [hlast] at h
    simp only [Option.getD_none, Bindings.find?_insert]
    split
    · rfl
    · exact h

end Scope

/-- A scope between the statements of a script: no call is open, references name what is defined, and variables and the
variables of functions are called by some names. -/
structure Scope.IsSettled (names : List String) (scope : Scope) : Prop where
  admits : (Discipline.script scope.globalFrame.functions names).Admits 0 scope
  functions : ∀ name function, scope.function? name = some function → function.IsPlainIn names

namespace Scope.IsSettled

variable {names : List String} {scope : Scope}

/-- In a settled scope, evaluation keeps to the discipline of the script. -/
theorem lawful (h : scope.IsSettled names) : (Discipline.script scope.globalFrame.functions names).Lawful :=
  Discipline.lawful_script h.functions

/-- A script begins in a settled scope. -/
theorem global : Scope.global.IsSettled names := by
  refine ⟨⟨rfl, rfl, ?_⟩, ?_⟩
  · intro frame hframe name value hfind
    rw [List.mem_singleton.mp hframe] at hfind
    cases hfind
  · intro name function hfind
    cases hfind

/-- Statements that define no function keep the functions of a settled scope. -/
theorem of_admits (h : scope.IsSettled names) {after : Scope}
    (hafter : (Discipline.script scope.globalFrame.functions names).Admits 0 after) : after.IsSettled names := by
  have htable := hafter.functions
  refine ⟨?_, ?_⟩
  · rw [htable]
    exact hafter
  · intro name function hfind
    rw [Scope.function?, htable] at hfind
    exact h.functions name function hfind

/-- The definition of a function keeps the scope settled. -/
theorem define (h : scope.IsSettled names) {function : Function} (hfunction : function.IsPlainIn names) :
    (scope.define function).IsSettled names := by
  refine ⟨⟨h.admits.depth_eq, rfl, ?_⟩, ?_⟩
  · intro frame hframe name value hfind
    have hlocal : name ∈ names ∧ value.Everywhere (Expr.RefersTo fun target =>
        (scope.function? target).isSome = true ∨ Builtin.isName target = true) := by
      rcases List.mem_cons.mp hframe with rfl | hframe
      · exact h.admits.locals scope.frame List.mem_cons_self name value hfind
      · exact h.admits.locals frame (List.mem_cons_of_mem _ hframe) name value hfind
    refine ⟨hlocal.1, hlocal.2.mono fun node hnode => hnode.mono fun target hdefined => ?_⟩
    rcases hdefined with hdefined | hbuiltin
    · exact .inl (Scope.isSome_function?_define hdefined)
    · exact .inr hbuiltin
  · intro name found hfind
    rcases Scope.of_function?_define hfind with rfl | hfound
    · exact hfunction
    · exact h.functions name found hfound

end Scope.IsSettled

namespace Script

variable {names : List String} {settings : Settings} {bound : Nat}

/-- The definition of a function leaves the scope settled, whether or not it is accepted. -/
theorem settled_define {function : Function} (hfunction : function.IsPlainIn names) {activation : Activation}
    (hscope : activation.scope.IsSettled names) : (define function activation).2.scope.IsSettled names := by
  have hagree : Run.Agree (fun _ => False) (fun activation : Activation => activation.scope.IsSettled names) (fun _ => True)
      (define function) (define function) := by
    unfold define
    refine (Run.agree_refl fun activation hscope => hscope).bind fun scope _ => ?_
    split
    · exact Run.agree_fail _
    · split
      · exact Run.agree_fail _
      · have hdefine : Run.Agree (fun _ => False) (fun activation : Activation => activation.scope.IsSettled names)
            (fun _ => True) (Exec.changeScope (·.define function)) (Exec.changeScope (·.define function)) :=
          Run.agree_modify fun activation hscope => hscope.define hfunction
        dsimp only
        split
        · exact (Run.agree_refl fun activation hscope => hscope).bind fun _ _ => hdefine
        · exact hdefine
  exact (hagree activation hscope).1

/-- A statement runs under the settings as with environments that are nested deep enough, and leaves the scope settled. -/
theorem runStatement_envNested (beyond : Scope → Env) (hbound : (names.length + 3) * (settings.maxCallDepth + 1) ≤ bound)
    {s : Stmt} (hs : s.IsPlainIn names) {activation : Activation} (hscope : activation.scope.IsSettled names) :
    runStatement (Scope.envNested settings beyond bound) s activation = runStatement (Scope.envUnder settings) s activation ∧
      (runStatement (Scope.envNested settings beyond bound) s activation).2.scope.IsSettled names := by
  let d := Discipline.script activation.scope.globalFrame.functions names
  have henv : ∀ scope, d.Admits 0 scope →
      d.EnvAgree (scope.envNested settings beyond bound) (scope.envUnder settings) := by
    intro scope hadmits
    refine Discipline.agree_envNested hscope.lawful Discipline.closed_script beyond hadmits ?_
    have hfree := scope.freeAmong_le names
    rw [Discipline.levels, hadmits.depth_eq, Nat.sub_zero]
    rw [Nat.mul_succ, Nat.mul_comm] at hbound
    omega
  have hexec := Discipline.agree_exec hscope.lawful henv (Discipline.admissible_script hs.1 hs.2)
  have hrun : (∃ function : Function, s = .define function.name function.parameters function.body function.span) ∨
      d.ExecAgree 0 (fun _ => True) (runStatement (Scope.envNested settings beyond bound) s)
        (runStatement (Scope.envUnder settings) s) := by
    cases s with
    | define name parameters body span => exact .inl ⟨⟨name, parameters, body, span⟩, rfl⟩
    | assign | loop | choose | expression =>
      simp only [runStatement]
      refine .inr (hexec.bind fun result _ => ?_)
      cases result with
      | some value => exact Run.agree_fail _
      | none => exact Run.agree_pure trivial
  rcases hrun with ⟨function, rfl⟩ | hrun
  · exact ⟨rfl, settled_define hs hscope⟩
  · obtain ⟨hinv, _, hsame⟩ := hrun activation ⟨trivial, hscope.admits⟩
    exact ⟨hsame.resolve_right fun ⟨_, _, hexempt⟩ => hexempt, hscope.of_admits hinv.2⟩

/-- Statements one after the other run under the settings as with environments that are nested deep enough, and leave the
scope settled. -/
theorem runStatements_envNested (beyond : Scope → Env) (hbound : (names.length + 3) * (settings.maxCallDepth + 1) ≤ bound)
    {statements : List Stmt} (hstatements : Stmt.AllBlock Expr.IsReferenceFree statements)
    (hnames : Stmt.blockBoundNames statements ⊆ names) {activation : Activation}
    (hscope : activation.scope.IsSettled names) :
    runStatements (Scope.envNested settings beyond bound) statements activation =
        runStatements (Scope.envUnder settings) statements activation ∧
      (runStatements (Scope.envNested settings beyond bound) statements activation).2.scope.IsSettled names := by
  induction statements generalizing activation with
  | nil => exact ⟨rfl, hscope⟩
  | cons s statements ih =>
    rw [Stmt.blockBoundNames, List.append_subset] at hnames
    obtain ⟨hsame, hsettled⟩ := runStatement_envNested beyond hbound ⟨hstatements.1, hnames.1⟩ hscope
    change Run.bind _ _ activation = Run.bind _ _ activation ∧ (Run.bind _ _ activation).2.scope.IsSettled names
    unfold Run.bind
    rw [← hsame]
    generalize runStatement (Scope.envNested settings beyond bound) s activation = outcome at hsettled
    obtain ⟨result, after⟩ := outcome
    cases result with
    | error error => exact ⟨rfl, hsettled⟩
    | ok _ => exact ih hstatements.2 hnames.2 hsettled

/-- Statements without references to functions leave the scope of a script settled. -/
theorem isSettled_runStatements (settings : Settings) (output : Output) {statements : List Stmt}
    (h : Stmt.AllBlock Expr.IsReferenceFree statements) :
    (runStatements (Scope.envUnder settings) statements { scope := .global, output }).2.scope.IsSettled
      (Stmt.blockBoundNames statements) := by
  have hglobal : ({ scope := .global, output } : Activation).scope.IsSettled (Stmt.blockBoundNames statements) := .global
  obtain ⟨hsame, hsettled⟩ :=
    runStatements_envNested (Scope.envUnder settings) (Nat.le_refl _) h (List.Subset.refl _) hglobal
  rwa [hsame] at hsettled

/-- Every script ends: whatever it binds, defines and calls, and however many calls may be open, its statements run as with
environments that are nested no deeper than the names it binds and this limit allow, so nothing nested deeper is ever
asked. -/
theorem every_script_terminates {source : String} {statements : List Stmt} (h : parseScript source = .ok statements)
    (settings : Settings) (output : Output) (beyond : Scope → Env) {bound : Nat}
    (hbound : ((Stmt.blockBoundNames statements).length + 3) * (settings.maxCallDepth + 1) ≤ bound) :
    runStatements (Scope.envNested settings beyond bound) statements { scope := .global, output } =
      runStatements (Scope.envUnder settings) statements { scope := .global, output } :=
  (runStatements_envNested beyond hbound (Stmt.isReferenceFree_of_parseScript h) (List.Subset.refl _) .global).1

/-- A script with a function that calls itself through a parameter, and is called in a loop through a variable. -/
def endlessCalls : String :=
  "function f(x, g = f) => g(x) h = f for i in [1, 2] \x7b h(i) \x7d"

/-- A script that calls a function inside itself ends at the limit, whatever would answer beyond the levels it needs. -/
theorem every_script_terminates_endlessCalls :
    ∃ statements, parseScript endlessCalls = .ok statements ∧
      (∃ error activation, runStatements (Scope.envUnder { maxCallDepth := 2 }) statements
          { scope := .global, output := {} } = (.error error, activation) ∧
        error.message = "Maximum call depth exceeded calling f") ∧
      ∀ beyond, runStatements (Scope.envNested { maxCallDepth := 2 } beyond 21) statements { scope := .global, output := {} } =
        runStatements (Scope.envUnder { maxCallDepth := 2 }) statements { scope := .global, output := {} } := by
  have hnames : (parseScript endlessCalls).toOption.map (fun statements => (Stmt.blockBoundNames statements).length) =
      some 4 := by decide +kernel
  have hends : (parseScript endlessCalls).toOption.bind (fun statements =>
      ((runStatements (Scope.envUnder { maxCallDepth := 2 }) statements { scope := .global, output := {} }).1.map
        fun _ => "").tryCatch (fun error => .ok error.message) |>.toOption) =
      some "Maximum call depth exceeded calling f" := by decide +kernel
  cases hparse : parseScript endlessCalls with
  | error error =>
    rw [hparse] at hnames
    cases hnames
  | ok statements =>
    rw [hparse] at hnames hends
    refine ⟨statements, rfl, ?_, fun beyond => every_script_terminates hparse _ _ beyond ?_⟩
    · cases hrun : runStatements (Scope.envUnder { maxCallDepth := 2 }) statements { scope := .global, output := {} } with
      | mk result activation =>
        simp only [Except.toOption, Option.bind_some, hrun] at hends
        cases result with
        | ok u =>
          have hempty : "" = "Maximum call depth exceeded calling f" := Option.some.inj hends
          exact absurd hempty (by decide)
        | error error => exact ⟨error, activation, rfl, Option.some.inj hends⟩
    · have hlength : (Stmt.blockBoundNames statements).length = 4 := Option.some.inj hnames
      rw [hlength]
      decide

end Script

end TriggerScript
