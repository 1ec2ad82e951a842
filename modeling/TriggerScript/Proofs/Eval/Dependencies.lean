import TriggerScript.Proofs.Eval.Journal
import TriggerScript.Proofs.Eval.Mentions
import TriggerScript.Proofs.Eval.Termination

/-!
# What an expression depends on

An expression reports the names that it reads. Evaluation looks up no other name where it starts: a function sees only the
global frame, a variable stands for a value, and a reference in a value leads to a function. A name is also looked up on
behalf of a reference that is written in the expression, and such a name is reported too. So two scopes of one script in
which the reported names are bound alike give the expression one value, or one error.
-/

namespace TriggerScript

/-! ## Reported names -/

namespace Expr

/-- The name that a node reads. -/
def name? : Expr → Option String
  | .var _ name | .functionRef _ name | .call _ name _ => some name
  | _ => none

theorem listDependencies_eq (es : List Expr) : listDependencies es = es.flatMap dependencies := by
  induction es with
  | nil => rfl
  | cons e es ih => rw [listDependencies, ih, List.flatMap_cons]

theorem entryDependencies_eq (entries : List (Expr × Expr)) :
    entryDependencies entries = entries.flatMap fun entry => entry.1.dependencies ++ entry.2.dependencies := by
  induction entries with
  | nil => rfl
  | cons entry entries ih => rw [entryDependencies, ih, List.flatMap_cons]

/-- A tree reads the name of its root and the names that its parts read. -/
theorem dependencies_eq (e : Expr) : e.dependencies = e.name?.toList ++ e.children.flatMap dependencies := by
  cases e with
  | dictionary mark entries => simp [dependencies, name?, children, entryDependencies_eq, List.flatMap_assoc]
  | logical mark op left right => cases left <;> simp [dependencies, name?, children]
  | _ => simp [dependencies, name?, children, listDependencies_eq]

/-- The name of every node is reported. -/
theorem everywhere_mem_dependencies (e : Expr) :
    e.Everywhere fun node => ∀ name, node.name? = some name → name ∈ e.dependencies := by
  induction e using children_induction with
  | h e ih =>
    rw [dependencies_eq]
    refine everywhere_iff.mpr ⟨fun name hname => by simp [hname], fun part hpart => ?_⟩
    refine (ih part hpart).mono fun node hnode name hname => List.mem_append_right _ ?_
    exact List.mem_flatMap.mpr ⟨part, hpart, hnode name hname⟩

end Expr

/-! ## Scopes in which some names are bound alike -/

namespace Scope

/-- References in a tree lead to functions. -/
abbrev RefersToFunctions (scope : Scope) (e : Expr) : Prop :=
  e.Everywhere (Expr.RefersTo fun target => scope.hasFunction target = true)

/-- Every variable along the chain is bound to a value, and the references in it lead to functions. -/
def IsEvaluated (scope : Scope) : Prop :=
  ∀ frame ∈ scope.frames, ∀ name value, frame.locals.find? name = some value →
    value.isReduced = true ∧ scope.RefersToFunctions value

/-- The references that functions are written with lead to functions. A script spells none. -/
def HasClosedFunctions (scope : Scope) : Prop :=
  ∀ name function, scope.function? name = some function →
    (Stmt.define function.name function.parameters function.body function.span).All scope.RefersToFunctions

/-- Between the statements of a script, functions are written without references. -/
theorem hasClosedFunctions_of_isSettled {names : List String} {script scope : Scope} (h : script.IsSettled names)
    (hfunctions : scope.globalFrame.functions = script.globalFrame.functions) : scope.HasClosedFunctions := by
  intro name function hfind
  rw [function?, hfunctions] at hfind
  exact (h.functions name function hfind).1.mono fun e he => Expr.IsReferenceFree.refersTo he _

/-- The functions that a script has defined after some of its statements are closed in every scope that sees them, also
inside of calls and blocks. -/
theorem hasClosedFunctions_of_parseScript {source : String} {statements others : List Stmt}
    (h : parseScript source = .ok (statements ++ others)) (settings : Settings) (output : Output) {scope : Scope}
    (hfunctions : scope.globalFrame.functions =
      (Script.runStatements (Scope.envUnder settings) statements
        { scope := .global, output }).2.scope.globalFrame.functions) :
    scope.HasClosedFunctions :=
  hasClosedFunctions_of_isSettled
    (Script.isSettled_runStatements settings output (Stmt.isReferenceFree_of_parseScript h).of_append) hfunctions

theorem hasFunction_child (context : Context) (scope : Scope) : (scope.child context).hasFunction = scope.hasFunction := by
  funext name
  rw [hasFunction, hasFunction, function?_child]

theorem IsEvaluated.child {scope : Scope} (h : scope.IsEvaluated) (context : Context) :
    (scope.child context).IsEvaluated := by
  unfold IsEvaluated RefersToFunctions
  rw [hasFunction_child]
  intro frame hframe
  rcases List.mem_cons.mp hframe with rfl | hframe
  · intro name value hfind
    cases hfind
  · exact h frame hframe

/-- A name that is found is bound to a value whose references lead to functions. -/
theorem IsEvaluated.of_find? {scope : Scope} (h : scope.IsEvaluated) {name : String} {value : Expr}
    (hfind : scope.find? name = some value) : value.isReduced = true ∧ scope.RefersToFunctions value := by
  obtain ⟨frame, hframe, hlocal⟩ := exists_of_find? hfind
  exact h frame hframe name value hlocal

/-- Two scopes of one script, at the same depth of calls, in which some names are bound alike to values. -/
structure BindAlike (names : List String) (scope scope' : Scope) : Prop where
  global : scope'.globalFrame = scope.globalFrame
  depth : scope'.depth = scope.depth
  evaluated : scope.IsEvaluated
  bound : ∀ name ∈ names, scope'.find? name = scope.find? name

namespace BindAlike

variable {names : List String} {scope scope' : Scope} {caller : Caller} {name : String} {span : Span}

theorem child (h : BindAlike names scope scope') (context : Context) :
    BindAlike names (scope.child context) (scope'.child context) where
  global := by rw [globalFrame_child, globalFrame_child, h.global]
  depth := h.depth
  evaluated := h.evaluated.child context
  bound := h.bound

variable (h : BindAlike names scope scope')
include h

/-- Both scopes see the same functions. -/
theorem functions (name : String) : scope'.function? name = scope.function? name := by
  rw [function?, function?, h.global]

/-- A name calls the same in both scopes if it is that of a function, or bound alike. -/
theorem callee_eq (hname : scope.hasFunction name = true ∨ name ∈ names) : scope'.callee name = scope.callee name := by
  refine callee_congr h.functions (hname.imp_right fun hmem => ⟨h.bound name hmem, fun mark target hfind => ?_⟩)
  exact (h.evaluated.of_find? hfind).2.root

/-- A name is resolved without working anything out. -/
theorem alike_resolve (settings : Settings) (hname : name ∈ names) :
    Eval.Alike ((scope.envUnder settings).resolve name span) ((scope'.envUnder settings).resolve name span) := by
  rw [envUnder, envUnder, env_resolve, env_resolve, resolveWith, resolveWith, h.bound name hname, h.functions]
  cases hfind : scope.find? name with
  | none =>
    dsimp only
    split
    · exact Run.respects_pure _
    · exact Run.respects_fail _
  | some value =>
    have hreduced := (h.evaluated.of_find? hfind).1
    simp only [hreduced, if_true]
    exact Run.respects_pure _

/-- A name is called alike if functions are applied to items alike. -/
theorem alike_invokeWith
    (hcaller : ∀ function values span, Eval.Alike (caller.call scope function values span)
      (caller.call scope' function values span))
    {apply apply' : Scope → String → Expr → Eval (Option Expr)} {values : List Expr}
    (happly : ∀ mark predicate item, .functionRef mark predicate ∈ values →
      Eval.Alike (apply (scope.child (.iteration predicate)) predicate item)
        (apply' (scope'.child (.iteration predicate)) predicate item))
    (hname : scope.hasFunction name = true ∨ name ∈ names) :
    Eval.Alike (scope.invokeWith caller apply name values span) (scope'.invokeWith caller apply' name values span) := by
  unfold invokeWith
  rw [h.callee_eq hname]
  cases scope.callee name with
  | function function => exact hcaller function values span
  | builtin builtin => exact Builtin.alike_apply happly
  | unknown name => exact Run.respects_fail _

/-- Names are called alike under the settings, with values that refer to functions and to names that are bound alike. -/
theorem alike_call (settings : Settings) (hname : scope.hasFunction name = true ∨ name ∈ names) {values : List Expr}
    (hvalues : ∀ mark predicate, .functionRef mark predicate ∈ values →
      scope.hasFunction predicate = true ∨ predicate ∈ names) :
    Eval.Alike ((scope.envUnder settings).call name values span) ((scope'.envUnder settings).call name values span) := by
  have hcaller : settings.caller scope' = settings.caller scope := by rw [Settings.caller, Settings.caller, h.depth]
  have hcall : ∀ {scope scope' : Scope}, BindAlike names scope scope' → ∀ function values span, Eval.Alike
      ((settings.caller scope).call scope function values span) ((settings.caller scope).call scope' function values span) :=
    fun h => Function.alike_callWithin _ _ h.global h.depth
  rw [envUnder_call, envUnder_call, hcaller]
  refine h.alike_invokeWith (hcall h) (fun mark predicate item hmem => ?_) hname
  refine (h.child _).alike_invokeWith (hcall (h.child _)) (fun _ _ _ _ => Run.respects_pure _) ?_
  rw [hasFunction_child]
  exact hvalues mark predicate hmem

end BindAlike

/-! ## Values of arguments -/

section Values

variable {scope : Scope} {allowed : String → Prop} (hevaluated : scope.IsEvaluated) (hfunctions : scope.HasClosedFunctions)
  (hallowed : ∀ target, scope.hasFunction target = true → allowed target)
include hevaluated hfunctions hallowed

/-- References to functions come from variables and functions, and all others from the expressions that are evaluated. -/
theorem refersTo_of_evaluateAll {settings : Settings} {args values : List Expr} {output output' : Output}
    (hargs : ∀ arg ∈ args, arg.Everywhere (Expr.RefersTo allowed))
    (h : Expr.evaluateAll (scope.envUnder settings) args output = (.ok values, output')) :
    ∀ mark target, .functionRef mark target ∈ values → allowed target := by
  let d := Discipline.references scope.globalFrame.functions allowed fun _ => True
  have hrefers : ∀ e, scope.RefersToFunctions e → e.Everywhere (Expr.RefersTo allowed) :=
    fun e he => he.mono fun node hnode => hnode.mono hallowed
  have hd : d.Lawful := by
    refine Discipline.lawful_references (fun target hdefined => hallowed target (Bool.or_eq_true_iff.mpr hdefined)) ?_
    intro target function hfind
    exact Discipline.callable_of_all hrefers hrefers (hfunctions target function hfind) fun _ _ => trivial
  have hscope : d.Admits scope.depth scope :=
    ⟨rfl, rfl, fun frame hframe name value hfind => ⟨trivial, hrefers value (hevaluated frame hframe name value hfind).2⟩⟩
  have hagree := Discipline.agree_evaluateAll (fun arg hmem =>
    Discipline.agree_replace hd (Discipline.agree_envUnder hd settings hscope) (hargs arg hmem)) output trivial
  intro mark target hmem
  exact (hagree.2.1 values (congrArg Prod.fst h) _ hmem).root.2

end Values

/-- An expression depends only on the names that it reports: in two scopes of one script, at the same depth of calls, in
which these names are bound alike, it has one value or one error, and registers the same. The journal may differ, since it
tells where calls come from. -/
theorem only_dependencies_matter {settings : Settings} {scope scope' : Scope} {e : Expr}
    (hglobal : scope'.globalFrame = scope.globalFrame) (hdepth : scope'.depth = scope.depth)
    (hevaluated : scope.IsEvaluated) (hfunctions : scope.HasClosedFunctions)
    (hbound : ∀ name ∈ e.dependencies, scope'.find? name = scope.find? name) :
    Eval.Alike (scope.evaluate settings e) (scope'.evaluate settings e) := by
  have halike : BindAlike e.dependencies scope scope' := ⟨hglobal, hdepth, hevaluated, hbound⟩
  have hnames := e.everywhere_mem_dependencies
  refine Expr.matches_ifValue (Expr.matches_replace fun node hnode => ?_)
  cases node with
  | var mark name => exact halike.alike_resolve settings (hnames _ hnode name rfl)
  | call mark name args =>
    intro values hvalues
    obtain ⟨output, output', hvalues⟩ := hvalues
    refine halike.alike_call settings (.inr (hnames _ hnode name rfl)) ?_
    refine refersTo_of_evaluateAll hevaluated hfunctions (fun _ => .inl) (fun arg hmem => ?_) hvalues
    refine ((hnames.below hnode).part hmem).mono fun part hpart => ?_
    cases part with
    | functionRef mark target => exact .inr (hpart target rfl)
    | _ => trivial
  | _ => trivial

/-- A script with a variable, and a function that reads it and applies to items. -/
def withLimit : Scope :=
  (Scope.global.assign "limit" (.memory {} (.ofSize .byte 16))).define
    { name := "isAtLimit"
      parameters := [⟨"x", none⟩, ⟨"margin", some (.integer {} 1)⟩]
      body := [.expression (.returned {}
        (.comparison {} .equal (.var {} "x") (.arithmetic {} .add (.var {} "limit") (.var {} "margin"))))]
      span := {} }

/-- A scope inside of it with a variable for the function. -/
def applyingLimit (context : Context) (scope : Scope) : Scope :=
  (scope.child context).assign "check" (.functionRef {} "isAtLimit")

/-- A further scope in which the variable that the function reads has another value, which the function does not see. -/
def shadowingLimit : Scope :=
  applyingLimit (.iteration "all_of") ((withLimit.child (.resolving "x")).assign "limit" (.integer {} 5))

/-- A call that applies what the variable stands for to two items. -/
def limitCheck : Expr :=
  .call {} "any_of" [.array {} [.integer {} 7, .integer {} 8], .var {} "check"]

/-- A function that reads a global variable does not see that it is hidden where the function is applied. -/
theorem only_dependencies_matter_shadowingLimit :
    let scope := applyingLimit (.resolving "y") withLimit
    limitCheck.dependencies = ["any_of", "check"] ∧
      (scope.find? "limit").map Expr.render = some "byte(0x000010)" ∧
      (shadowingLimit.find? "limit").map Expr.render = some "5" ∧
      (scope.evaluate {} limitCheck {}).1.toOption.map Expr.render =
        some "7 == byte(0x000010) + 1 || 8 == byte(0x000010) + 1" ∧
      Eval.Alike (scope.evaluate {} limitCheck) (shadowingLimit.evaluate {} limitCheck) := by
  intro scope
  have hentries : ∀ frame ∈ scope.frames, ∀ entry ∈ frame.locals.entries,
      entry.2.isReduced = true ∧ scope.RefersToFunctions entry.2 := by decide +kernel
  have hevaluated : scope.IsEvaluated :=
    fun frame hframe name value hfind => hentries frame hframe (name, value) (Bindings.mem_of_find? hfind)
  have hfunctions : scope.HasClosedFunctions := by
    intro name function hfind
    have hmem := Bindings.mem_of_find? hfind
    obtain rfl : function = _ := congrArg Prod.snd (List.mem_singleton.mp hmem)
    refine ⟨fun parameter hparameter default hdefault => ?_, ?_, trivial⟩
    · rcases List.mem_cons.mp hparameter with rfl | hparameter
      · cases hdefault
      · obtain rfl := List.mem_singleton.mp hparameter
        obtain rfl := Option.some.inj hdefault
        decide +kernel
    · rw [Stmt.All]
      decide +kernel
  refine ⟨rfl, by decide +kernel, by decide +kernel, by decide +kernel, ?_⟩
  exact only_dependencies_matter rfl rfl hevaluated hfunctions
    (List.forall_mem_cons.mpr ⟨rfl, List.forall_mem_singleton.mpr rfl⟩)

end Scope

end TriggerScript
