import TriggerScript.Proofs.Eval.Fixpoints
import TriggerScript.Proofs.Eval.Folding
import TriggerScript.Proofs.Eval.Journal
import TriggerScript.Proofs.Eval.Mentions

/-!
# Arguments that are left out

A parameter without an argument is bound to its default as it is written, and then looked up by its name: a default in which
no name, index or call is left stays as it is written, and any other default is evaluated. A default that mentions no
variable and calls no function of the script is evaluated inside the call as in front of it. So a call that leaves arguments
out does what the call does that writes their defaults out, as long as no default stays as it is written that evaluation
would fold.
-/

namespace TriggerScript

/-! ## Runs one after the other -/

namespace Run

variable {σ α β : Type}

/-- Runs over a list that succeed give one result for each item. -/
theorem length_of_mapM {f : α → Run σ β} {as : List α} {bs : List β} {s s' : σ} (h : as.mapM f s = (.ok bs, s')) :
    bs.length = as.length := by
  induction as generalizing bs s s' with
  | nil =>
    obtain rfl := Except.ok.inj (Prod.mk.inj h).1
    rfl
  | cons a as ih =>
    rw [List.mapM_cons] at h
    obtain ⟨b, between, _, h⟩ := bind_eq_ok h
    obtain ⟨others, between', hothers, h⟩ := bind_eq_ok h
    obtain rfl := Except.ok.inj (Prod.mk.inj h).1
    rw [List.length_cons, List.length_cons, ih hothers]

theorem mapM_congr {f g : α → Run σ β} {as : List α} (h : ∀ a ∈ as, f a = g a) : as.mapM f = as.mapM g := by
  induction as with
  | nil => rfl
  | cons a as ih =>
    rw [List.forall_mem_cons] at h
    rw [List.mapM_cons, List.mapM_cons, h.1, ih h.2]

/-- Runs over a list respect a relation of states if each of them does. -/
theorem respects_mapM {rel : σ → σ → Prop} {f : α → Run σ β} (h : ∀ a, Respects rel (f a)) (as : List α) :
    Respects rel (as.mapM f) := by
  induction as with
  | nil => exact respects_pure _
  | cons a as ih =>
    rw [List.mapM_cons]
    exact (h a).bind fun b => ih.bind fun others => respects_pure _

end Run

namespace Eval

variable {α : Type} {run run' : Eval α}

/-- An event in the journal of one of two runs makes no difference. -/
theorem Alike.record_left (event : Event) (h : Alike run run') : Alike (Eval.record event >>= fun _ => run) run' :=
  fun output output' hsame => h (output.record event) output' hsame

/-- An event that is recorded first makes no difference. -/
theorem Alike.record_right (event : Event) (h : Alike run run') : Alike run (Eval.record event >>= fun _ => run') :=
  fun output output' hsame => h output (output'.record event) hsame

end Eval

/-- Trees are evaluated one by one. -/
theorem Expr.evaluateAll_eq_mapM (env : Env) (es : List Expr) : evaluateAll env es = es.mapM (evaluate env) := by
  induction es with
  | nil => rfl
  | cons e es ih =>
    rw [evaluateAll, List.mapM_cons, ih]
    rfl

/-! ## Names bound one after the other -/

namespace Bindings

variable {α : Type}

/-- The bindings with names bound one after the other. -/
def insertAll (pairs : List (String × α)) (bindings : Bindings α) : Bindings α :=
  pairs.foldl (fun bindings pair => bindings.insert pair.1 pair.2) bindings

/-- The names that are bound, the last one first, and then the names that were bound before and are not bound again. -/
theorem entries_insertAll {pairs : List (String × α)} (hnames : (pairs.map (·.1)).Nodup) (bindings : Bindings α) :
    (bindings.insertAll pairs).entries =
      pairs.reverse ++ bindings.entries.filter fun entry => !(pairs.map (·.1)).contains entry.1 := by
  induction pairs generalizing bindings with
  | nil => exact (List.filter_eq_self.mpr fun _ _ => rfl).symm
  | cons pair pairs ih =>
    rw [List.map_cons, List.nodup_cons] at hnames
    have hfirst : (pairs.map (·.1)).contains pair.1 = false := by simpa using hnames.1
    have hfilter : ∀ entry : String × α, (!(pairs.map (·.1)).contains entry.1 && decide (entry.1 ≠ pair.1)) =
        !((pair :: pairs).map (·.1)).contains entry.1 := by
      intro entry
      by_cases heq : entry.1 = pair.1 <;> simp [heq]
    have hstep : bindings.insertAll (pair :: pairs) = (bindings.insert pair.1 pair.2).insertAll pairs := rfl
    rw [hstep, ih hnames.2, insert, erase, List.filter_cons, hfirst, List.filter_filter, List.reverse_cons]
    simp only [hfilter, Bool.not_false, if_true, List.append_assoc, List.cons_append, List.nil_append]

/-- Binding the same names again undoes the first time. -/
theorem insertAll_insertAll {pairs pairs' : List (String × α)} (hsame : pairs'.map (·.1) = pairs.map (·.1))
    (hnames : (pairs.map (·.1)).Nodup) (bindings : Bindings α) :
    (bindings.insertAll pairs).insertAll pairs' = bindings.insertAll pairs' := by
  have hdropped : pairs.reverse.filter (fun entry => !(pairs.map (·.1)).contains entry.1) = [] := by
    rw [List.filter_eq_nil_iff]
    intro entry hmem
    have hname : entry.1 ∈ pairs.map (·.1) := List.mem_map_of_mem (List.mem_reverse.mp hmem)
    simpa using hname
  have hentries : ((bindings.insertAll pairs).insertAll pairs').entries = (bindings.insertAll pairs').entries := by
    have hnames' : (pairs'.map (·.1)).Nodup := hsame ▸ hnames
    rw [entries_insertAll hnames', entries_insertAll hnames, entries_insertAll hnames', hsame, List.filter_append, hdropped,
      List.filter_filter, List.nil_append]
    simp only [Bool.and_self]
  exact congrArg Bindings.mk hentries

end Bindings

namespace Scope

variable {scope : Scope} {name : String}

/-- The scope with variables bound one after the other. -/
def assignAll (pairs : List (String × Expr)) (scope : Scope) : Scope :=
  { scope with frame.locals := scope.frame.locals.insertAll pairs }

theorem assignAll_cons (pair : String × Expr) (pairs : List (String × Expr)) (scope : Scope) :
    scope.assignAll (pair :: pairs) = (scope.assign pair.1 pair.2).assignAll pairs :=
  rfl

theorem assignAll_append (pairs pairs' : List (String × Expr)) (scope : Scope) :
    scope.assignAll (pairs ++ pairs') = (scope.assignAll pairs).assignAll pairs' := by
  simp [assignAll, Bindings.insertAll]

/-- Variables that are bound again, all of them once, are bound as the second time. -/
theorem assignAll_assignAll {pairs pairs' : List (String × Expr)} (hsame : pairs'.map (·.1) = pairs.map (·.1))
    (hnames : (pairs.map (·.1)).Nodup) (scope : Scope) :
    (scope.assignAll pairs).assignAll pairs' = scope.assignAll pairs' := by
  simp only [assignAll, Bindings.insertAll_insertAll hsame hnames]

/-- After an assignment, the name is found with the value, and every other name as before. -/
theorem find?_assign {value : Expr} {other : String} :
    (scope.assign name value).find? other = if other = name then some value else scope.find? other := by
  simp only [find?, frames, assign, List.findSome?_cons, Bindings.find?_insert]
  by_cases h : other = name <;> simp [h]

/-- A variable that is not among those bound is as it was. -/
theorem find?_assignAll_of_notMem {pairs : List (String × Expr)} (h : name ∉ pairs.map (·.1)) :
    (scope.assignAll pairs).find? name = scope.find? name := by
  induction pairs generalizing scope with
  | nil => rfl
  | cons pair pairs ih =>
    rw [List.map_cons, List.mem_cons, not_or] at h
    rw [assignAll_cons, ih h.2, find?_assign, if_neg h.1]

/-- A variable that is bound once has the value it is bound to. -/
theorem find?_assignAll_of_mem {pairs : List (String × Expr)} (hnames : (pairs.map (·.1)).Nodup) {pair : String × Expr}
    (h : pair ∈ pairs) : (scope.assignAll pairs).find? pair.1 = some pair.2 := by
  induction pairs generalizing scope with
  | nil => cases h
  | cons first pairs ih =>
    rw [List.map_cons, List.nodup_cons] at hnames
    rw [assignAll_cons]
    rcases List.mem_cons.mp h with rfl | hmem
    · rw [find?_assignAll_of_notMem hnames.1, find?_assign, if_pos rfl]
    · exact ih hnames.2 hmem

/-- Binding variables defines no functions. -/
theorem function?_assignAll (pairs : List (String × Expr)) :
    (scope.assignAll pairs).function? name = scope.function? name := by
  rw [function?, assignAll, functions_globalFrame, function?]

theorem isResolving_assignAll (pairs : List (String × Expr)) :
    (scope.assignAll pairs).isResolving name = scope.isResolving name :=
  rfl

/-! ## The scope of a call -/

/-- A function sees the variables of the script as a whole, wherever it is called from. -/
theorem find?_call (function : String) (span : Span) :
    (scope.call function span).find? name = scope.globalFrame.locals.find? name := by
  simp only [find?, frames, call, List.findSome?_cons, List.findSome?_nil]
  cases scope.globalFrame.locals.find? name <;> rfl

/-- A function sees the functions of the script, wherever it is called from. -/
theorem function?_call (function : String) (span : Span) :
    (scope.call function span).function? name = scope.function? name :=
  rfl

/-- No variable is being worked out where a function starts. -/
theorem isResolving_call (hcontext : scope.globalFrame.context = .global) (function : String) (span : Span) :
    (scope.call function span).isResolving name = false := by
  simp [isResolving, frames, call, hcontext]

/-- The scope of the script as a whole. -/
def IsGlobal (scope : Scope) : Prop :=
  scope.frame.context = .global ∧ scope.outer = []

/-- The scope of the script has one frame, the global one. -/
theorem globalFrame_of_isGlobal (hglobal : scope.IsGlobal) : scope.globalFrame = scope.frame := by
  rw [globalFrame, hglobal.2]
  rfl

/-- A function that is called from the scope of the script sees the variables that its caller sees. -/
theorem find?_call_of_isGlobal (hglobal : scope.IsGlobal) (function : String) (span : Span) :
    (scope.call function span).find? name = scope.find? name := by
  rw [find?_call, globalFrame_of_isGlobal hglobal]
  simp only [find?, frames, hglobal.2, List.findSome?_cons, List.findSome?_nil]
  cases scope.frame.locals.find? name <;> rfl

/-! ## Defaults that can be written out -/

/-- Whether a name is neither a variable of a scope nor one of some parameters. -/
def isUnbound (parameters : List String) (scope : Scope) (name : String) : Bool :=
  (scope.find? name).isNone && !parameters.contains name

/-- Whether a tree mentions no variable of a scope and none of some parameters. A name that is called is first looked for
among the functions. -/
def mentionsNone (parameters : List String) (scope : Scope) (e : Expr) : Bool :=
  e.nodes.all (Expr.asksFor (scope.isUnbound parameters) fun name =>
    scope.hasFunction name || scope.isUnbound parameters name)

/-- An expression that may stand as an argument, mentions no variable of a scope and none of some parameters, and calls no
function of the script. -/
structure Independent (badge : String) (parameters : List String) (scope : Scope) (e : Expr) : Prop where
  isValue : e.isValue = true
  mentionsNone : scope.mentionsNone parameters e = true
  callsNone : scope.CallsNone badge e

section Inside

variable {badge : String} {parameters : List String} {bound : List (String × Expr)} (hglobal : scope.IsGlobal)
  (hbound : ∀ pair ∈ bound, pair.1 ∈ parameters) (function : String) (place : Span)
include hglobal hbound

/-- Apart from its parameters, a call from the global scope sees what the global scope sees. -/
theorem seeAlike_call (context : Context) :
    scope.SeeAlike (scope.isUnbound parameters) (fun name => scope.hasFunction name || scope.isUnbound parameters name)
      (((scope.call function place).assignAll bound).child context) where
  functions name := by rw [function?_child, function?_assignAll, function?_call]
  unbound name hname := by
    simp only [isUnbound, Bool.and_eq_true, Option.isNone_iff_eq_none, Bool.not_eq_true', List.contains_eq_mem,
      decide_eq_false_iff_not] at hname
    have hnotMem : name ∉ bound.map (·.1) := by
      intro hmem
      obtain ⟨pair, hpair, rfl⟩ := List.mem_map.mp hmem
      exact hname.2 (hbound pair hpair)
    refine ⟨hname.1, ?_⟩
    change ((scope.call function place).assignAll bound).find? name = none
    rw [find?_assignAll_of_notMem hnotMem, find?_call_of_isGlobal hglobal, hname.1]
  called name hname := by simpa using hname
  builtin name hname := by simp [hasFunction, hname]
  referred name _ hname := by simp [hname]

end Inside

end Scope

namespace Expr

/-- What a parameter is bound to that is left to its default: the default as it is written if no name, index or call is left
in it, else its value. -/
def settle (env : Env) (default : Expr) : Eval Expr :=
  if default.isReduced then pure default else default.evaluate env

/-- A default is settled without looking at the journal. -/
theorem ignoresJournal_settle {env : Env} (henv : env.IgnoresJournal) (default : Expr) :
    Eval.IgnoresJournal (default.settle env) := by
  unfold settle
  split
  · exact Run.respects_pure _
  · exact ignoresJournal_evaluate henv default

/-- A default that evaluation leaves alone if nothing is left to work out in it is bound to its value. -/
theorem settle_eq_evaluate {env : Env} {default : Expr} (h : default.isReduced = true → default.IsNormal) :
    default.settle env = default.evaluate env := by
  unfold settle
  split
  · rename_i hreduced
    rw [evaluate_of_isNormal (h hreduced)]
  · rfl

end Expr

namespace Function

/-! ## Binding parameters -/

/-- Parameters are bound to the arguments and then to the defaults of those that are left. -/
theorem bindParameters_eq (function : String) (span : Span) {parameters : List Parameter} {values defaults : List Expr}
    (h : (parameters.drop values.length).map (·.default?) = defaults.map some) (scope : Scope) :
    bindParameters function span parameters values scope =
      .ok (scope.assignAll ((parameters.map (·.name)).zip (values ++ defaults)),
        ((parameters.map (·.name)).drop values.length).zip (defaults.map (·.span))) := by
  induction parameters generalizing values defaults scope with
  | nil =>
    rw [bindParameters, List.map_nil, List.drop_nil]
    rfl
  | cons parameter parameters ih =>
    cases values with
    | cons value values =>
      rw [bindParameters, ih h]
      rfl
    | nil =>
      cases defaults with
      | nil => cases h
      | cons default defaults =>
        obtain ⟨hdefault, hrest⟩ := List.cons.inj h
        have hih := @ih [] defaults hrest (scope.assign parameter.name default)
        simp only [bindParameters, hdefault, hih]
        rfl

section Defaults

variable {badge : String} {scope : Scope} {parameters : List String} (hglobal : scope.IsGlobal) (function : String)
  (place : Span) (call call' : Scope → Function → List Expr → Span → Eval (Option Expr))
include hglobal

/-- Inside a call, the name of a parameter that is left to its default gives what the default settles to in front of it. -/
theorem resolve_default {bound : List (String × Expr)} (hbound : ∀ pair ∈ bound, pair.1 ∈ parameters) {name : String}
    {default : Expr} (hfind : ((scope.call function place).assignAll bound).find? name = some default)
    (hdefault : scope.Independent badge parameters default) (span : Span) :
    (((scope.call function place).assignAll bound).env { badge, call := call' }).resolve name span =
      default.settle (scope.env { badge, call }) := by
  have hcontext : scope.globalFrame.context = .global := Scope.globalFrame_of_isGlobal hglobal ▸ hglobal.1
  have hresolving : ((scope.call function place).assignAll bound).isResolving name = false := by
    rw [Scope.isResolving_assignAll, Scope.isResolving_call hcontext]
  have hvalue := Scope.evaluate_eq_of_seeAlike (Scope.seeAlike_call hglobal hbound function place (.resolving name))
    hdefault.callsNone (List.all_eq_true.mp hdefault.mentionsNone) call call'
  rw [Scope.env_resolve, Scope.resolveWith, hfind]
  unfold Expr.settle
  dsimp only
  rw [hresolving, hvalue, Expr.evaluate, Expr.ifValue_of_isValue hdefault.isValue]
  rfl

/-- Parameters that are left to their defaults are bound to what the defaults settle to in front of the call: whatever the
first one is bound to, the names that are still to come are bound as before. -/
theorem evaluateDefaults_eq {pairs bound : List (String × Expr)} (hnames : (pairs.map (·.1)).Nodup)
    (hbound : ∀ pair ∈ bound, pair.1 ∈ parameters) (hpairs : ∀ pair ∈ pairs, pair.1 ∈ parameters)
    (hfind : ∀ pair ∈ pairs, ((scope.call function place).assignAll bound).find? pair.1 = some pair.2)
    (hdefaults : ∀ pair ∈ pairs, scope.Independent badge parameters pair.2) :
    evaluateDefaults (Scope.env { badge, call := call' }) ((pairs.map (·.1)).zip ((pairs.map (·.2)).map (·.span)))
        ((scope.call function place).assignAll bound) =
      (do
        let settled ← (pairs.map (·.2)).mapM (Expr.settle (scope.env { badge, call }))
        return ((scope.call function place).assignAll bound).assignAll ((pairs.map (·.1)).zip settled)) := by
  induction pairs generalizing bound with
  | nil => rfl
  | cons pair pairs ih =>
    rw [List.map_cons, List.nodup_cons] at hnames
    rw [List.forall_mem_cons] at hpairs hfind hdefaults
    have hfirst := resolve_default hglobal function place call call' hbound hfind.1 hdefaults.1 pair.2.span
    have hrest : ∀ value, evaluateDefaults (Scope.env { badge, call := call' })
        ((pairs.map (·.1)).zip ((pairs.map (·.2)).map (·.span)))
        (((scope.call function place).assignAll bound).assign pair.1 value) =
        (do
          let settled ← (pairs.map (·.2)).mapM (Expr.settle (scope.env { badge, call }))
          return (((scope.call function place).assignAll bound).assign pair.1 value).assignAll
            ((pairs.map (·.1)).zip settled)) := by
      intro value
      have hassign : ((scope.call function place).assignAll bound).assign pair.1 value =
          (scope.call function place).assignAll (bound ++ [(pair.1, value)]) := by
        rw [Scope.assignAll_append]
        rfl
      rw [hassign]
      refine ih hnames.2 ?_ hpairs.2 (fun other hother => ?_) hdefaults.2
      · rw [List.forall_mem_append, List.forall_mem_singleton]
        exact ⟨hbound, hpairs.1⟩
      · have hne : other.1 ≠ pair.1 := fun heq => hnames.1 (heq ▸ List.mem_map_of_mem hother)
        rw [← hassign, Scope.find?_assign, if_neg hne]
        exact hfind.2 other hother
    simp only [List.map_cons, List.zip_cons_cons, evaluateDefaults, List.mapM_cons, bind_assoc, pure_bind]
    have hvar : (Expr.var { span := pair.2.span } pair.1).evaluate
        (((scope.call function place).assignAll bound).env { badge, call := call' }) =
        pair.2.settle (scope.env { badge, call }) := hfirst
    simp only [hvar, hrest]
    rfl

end Defaults

/-! ## Calls -/

/-- Names in front of values: those for the first values, and those for the others. -/
theorem zip_append_drop {α : Type} {names : List String} {values : List α} (h : values.length ≤ names.length)
    (others : List α) :
    names.zip (values ++ others) = (names.take values.length).zip values ++ (names.drop values.length).zip others := by
  have hlength : (names.take values.length).length = values.length := by rw [List.length_take, Nat.min_eq_left h]
  rw [← List.zip_append hlength, List.take_append_drop]

section Run

variable {badge : String} {scope : Scope} {names : List String} {values defaults : List Expr} (hglobal : scope.IsGlobal)
  (hnames : names.Nodup) (hlength : names.length = values.length + defaults.length)
  (hdefaults : ∀ default ∈ defaults, scope.Independent badge names default)
  (call call' : Scope → Function → List Expr → Span → Eval (Option Expr))

include hnames hlength in
/-- The parameters that are left are bound to their defaults first and to other values then. -/
theorem assignAll_settled {settled : List Expr} (hsettled : settled.length = defaults.length) (scope : Scope) :
    (scope.assignAll (names.zip (values ++ defaults))).assignAll ((names.drop values.length).zip settled) =
      scope.assignAll (names.zip (values ++ settled)) := by
  have hvalues : values.length ≤ names.length := by omega
  have hdrop : (names.drop values.length).length = defaults.length := by rw [List.length_drop]; omega
  have hfst : ∀ others : List Expr, others.length = defaults.length →
      ((names.drop values.length).zip others).map (·.1) = names.drop values.length :=
    fun others hothers => List.map_fst_zip (by omega)
  rw [zip_append_drop hvalues, zip_append_drop hvalues, Scope.assignAll_append, Scope.assignAll_append]
  refine Scope.assignAll_assignAll ?_ ?_ _
  · rw [hfst settled hsettled, hfst defaults rfl]
  · rw [hfst defaults rfl]
    exact hnames.sublist (List.drop_sublist _ _)

include hglobal hnames hlength hdefaults in
/-- The scope in which a body runs is the same whether its parameters are bound to settled defaults at once, or to the
defaults first and to what they settle to in a second step. -/
theorem evaluateDefaults_bound (function : String) (place : Span) :
    evaluateDefaults (Scope.env { badge, call := call' }) ((names.drop values.length).zip (defaults.map (·.span)))
        ((scope.call function place).assignAll (names.zip (values ++ defaults))) =
      (do
        let settled ← defaults.mapM (Expr.settle (scope.env { badge, call }))
        return ((scope.call function place).assignAll (names.zip (values ++ defaults))).assignAll
          ((names.drop values.length).zip settled)) := by
  have hvalues : values.length ≤ names.length := by omega
  have hdrop : (names.drop values.length).length = defaults.length := by rw [List.length_drop]; omega
  have hfst : ((names.drop values.length).zip defaults).map (·.1) = names.drop values.length :=
    List.map_fst_zip (Nat.le_of_eq hdrop)
  have hsnd : ((names.drop values.length).zip defaults).map (·.2) = defaults :=
    List.map_snd_zip (Nat.le_of_eq hdrop.symm)
  have hdistinct : (((names.drop values.length).zip defaults).map (·.1)).Nodup := by
    rw [hfst]
    exact hnames.sublist (List.drop_sublist _ _)
  have hbound : ∀ pair ∈ names.zip (values ++ defaults), pair.1 ∈ names := fun pair hpair => (List.of_mem_zip hpair).1
  have hpairs : ∀ pair ∈ (names.drop values.length).zip defaults, pair.1 ∈ names :=
    fun pair hpair => List.mem_of_mem_drop (List.of_mem_zip hpair).1
  have hfind : ∀ pair ∈ (names.drop values.length).zip defaults,
      ((scope.call function place).assignAll (names.zip (values ++ defaults))).find? pair.1 = some pair.2 := by
    intro pair hpair
    refine Scope.find?_assignAll_of_mem ?_ ?_
    · rw [List.map_fst_zip (by rw [List.length_append]; omega)]
      exact hnames
    · rw [zip_append_drop hvalues]
      exact List.mem_append_right _ hpair
  have h := evaluateDefaults_eq hglobal function place call call' hdistinct hbound hpairs hfind
    fun pair hpair => hdefaults pair.2 (List.of_mem_zip hpair).2
  rwa [hfst, hsnd] at h

end Run

/-- Runs the body of a function in a scope. -/
def runBody (envOf : Scope → Env) (function : Function) (inner : Scope) : Eval (Option Expr) := fun output =>
  ((Stmt.execBlock envOf function.body { scope := inner, output }).1,
    (Stmt.execBlock envOf function.body { scope := inner, output }).2.output)

/-- Binds parameters to arguments, and those that are left to the values of their defaults. -/
def bindArguments (envOf : Scope → Env) (scope : Scope) (function : Function) (values : List Expr) (span : Span) :
    Eval Scope := do
  let (bound, defaulted) ←
    bindParameters function.name span function.parameters values (scope.call function.name span)
  evaluateDefaults envOf defaulted bound

/-- A run records the call, binds the parameters and runs the body. -/
theorem run_eq_bindArguments {envOf : Scope → Env} {scope : Scope} {function : Function} {values : List Expr} {span : Span}
    (hfew : values.length ≤ function.parameters.length) :
    function.run envOf scope values span = (do
      Eval.record (.called scope.frame.context function.name values.length)
      let inner ← function.bindArguments envOf scope values span
      function.runBody envOf inner) := by
  rw [run, if_neg (Nat.not_lt.mpr hfew)]
  simp only [bindArguments, bind_assoc]
  rfl

/-- A run whose parameters are bound: a record of the call, the parameters left to their defaults, and the body. -/
theorem run_eq {envOf : Scope → Env} {scope bound : Scope} {function : Function} {values : List Expr} {span : Span}
    {defaulted : List (String × Span)} (hfew : values.length ≤ function.parameters.length)
    (hbind : bindParameters function.name span function.parameters values (scope.call function.name span) =
      .ok (bound, defaulted)) :
    function.run envOf scope values span = (do
      Eval.record (.called scope.frame.context function.name values.length)
      let inner ← evaluateDefaults envOf defaulted bound
      function.runBody envOf inner) := by
  rw [run_eq_bindArguments hfew, bindArguments, hbind]
  rfl

section Alike

variable {badge : String} {scope : Scope} {function : Function} {values defaults : List Expr} (hglobal : scope.IsGlobal)
  (hnames : (function.parameters.map (·.name)).Nodup)
  (hremaining : (function.parameters.drop values.length).map (·.default?) = defaults.map some)
  (hdefaults : ∀ default ∈ defaults, scope.Independent badge (function.parameters.map (·.name)) default)
  {call call' : Scope → Function → List Expr → Span → Eval (Option Expr)}
  (hcall : Scope.CallsIgnoreJournal { badge, call }) (hcall' : Scope.CallsIgnoreJournal { badge, call := call' })
include hglobal hnames hremaining hdefaults hcall hcall'

/-- Running a function on some arguments is like running it on these and what the other defaults settle to. -/
theorem run_alike (span : Span) :
    Eval.Alike (function.run (Scope.env { badge, call := call' }) scope values span) (do
      let settled ← defaults.mapM (Expr.settle (scope.env { badge, call }))
      function.run (Scope.env { badge, call := call' }) scope (values ++ settled) span) := by
  have henv := Scope.ignoresJournal_env hcall'
  have hlengths := congrArg List.length hremaining
  rw [List.length_map, List.length_map, List.length_drop] at hlengths
  rcases Nat.lt_or_ge function.parameters.length values.length with hmany | hfew
  · obtain rfl : defaults = [] := List.eq_nil_of_length_eq_zero (by omega)
    rw [List.mapM_nil, pure_bind, List.append_nil]
    exact ignoresJournal_run henv scope function values span
  · have hlength : (function.parameters.map (·.name)).length = values.length + defaults.length := by
      rw [List.length_map]
      omega
    have hsettle : Eval.IgnoresJournal (defaults.mapM (Expr.settle (scope.env { badge, call }))) :=
      Run.respects_mapM (fun default => Expr.ignoresJournal_settle (Scope.ignoresJournal_env hcall scope) default) defaults
    rw [run_eq hfew (bindParameters_eq function.name span hremaining _),
      evaluateDefaults_bound hglobal hnames hlength hdefaults call call', bind_assoc]
    refine Eval.Alike.record_left _ (Run.Matches.bind hsettle fun settled hok => ?_)
    obtain ⟨output, output', hok⟩ := hok
    have hsettled : settled.length = defaults.length := Run.length_of_mapM hok
    have hall : (values ++ settled).length = function.parameters.length := by
      rw [List.length_append]
      omega
    have hnone : (function.parameters.drop (values ++ settled).length).map (·.default?) = ([] : List Expr).map some := by
      rw [hall, List.drop_length]
      rfl
    rw [pure_bind, assignAll_settled hnames hlength hsettled,
      run_eq (Nat.le_of_eq hall) (bindParameters_eq function.name span hnone _), List.append_nil, List.map_nil,
      List.zip_nil_right, evaluateDefaults, pure_bind]
    exact Eval.Alike.record_right _ (ignoresJournal_body henv function.body _)

end Alike

end Function

namespace Scope

variable {settings : Settings} {scope : Scope} {mark : Mark} {name : String} {function : Function}
  {leading defaults : List Expr}

/-- A call with some arguments evaluated and others bound to what defaults settle to. -/
def callSettled (settings : Settings) (scope : Scope) (mark : Mark) (name : String) (leading defaults : List Expr) :
    Eval Expr := do
  let values ← Expr.evaluateAll (scope.envUnder settings) leading
  let settled ← defaults.mapM (Expr.settle (scope.envUnder settings))
  Expr.resultOf name mark.span (← (scope.envUnder settings).call name (values ++ settled) mark.span)

/-- A call under settings that allow one runs the function, with one call less allowed inside it. -/
theorem envUnder_call_of_callee {left : Nat} (hdepth : settings.maxCallDepth - scope.depth = left + 1)
    (hcallee : scope.callee name = .function function) (values : List Expr) (span : Span) :
    (scope.envUnder settings).call name values span =
      function.run (env ⟨settings.defaultBadge, Function.callWithin settings.defaultBadge left⟩) scope values span := by
  rw [envUnder_call, invoke, invokeWith, hcallee, Settings.caller, hdepth]
  rfl

/-- A call whose defaults are all worked out is the call that writes them out. -/
theorem callSettled_eq (h : ∀ default ∈ defaults, default.isReduced = true → default.IsNormal) :
    scope.callSettled settings mark name leading defaults =
      scope.evaluate settings (.call mark name (leading ++ defaults)) := by
  have hsettle : defaults.mapM (Expr.settle (scope.envUnder settings)) =
      Expr.evaluateAll (scope.envUnder settings) defaults := by
    rw [Expr.evaluateAll_eq_mapM]
    exact Run.mapM_congr fun default hmem => Expr.settle_eq_evaluate (h default hmem)
  have hall : Expr.evaluateAll (scope.envUnder settings) (leading ++ defaults) = (do
      let values ← Expr.evaluateAll (scope.envUnder settings) leading
      let others ← Expr.evaluateAll (scope.envUnder settings) defaults
      return values ++ others) := by
    simp only [Expr.evaluateAll_eq_mapM, List.mapM_append]
  rw [evaluate, Expr.evaluate, Expr.ifValue_of_isValue rfl, Expr.replace, hall, callSettled, hsettle]
  simp only [bind_assoc, pure_bind]

/-- A call from the global scope that leaves out arguments whose defaults are independent binds their parameters to what the
defaults settle to. It ends and registers as the call that writes the defaults out if every default in which no name, index
or call is left is one that evaluation leaves as it is. -/
theorem omitted_arguments_are_settled_defaults (hglobal : scope.IsGlobal) (hdepth : scope.depth < settings.maxCallDepth)
    (hcallee : scope.callee name = .function function) (hnames : (function.parameters.map (·.name)).Nodup)
    (hremaining : (function.parameters.drop leading.length).map (·.default?) = defaults.map some)
    (hdefaults : ∀ default ∈ defaults,
      scope.Independent settings.defaultBadge (function.parameters.map (·.name)) default) :
    Eval.Alike (scope.evaluate settings (.call mark name leading))
        (scope.callSettled settings mark name leading defaults) ∧
      ((∀ default ∈ defaults, default.isReduced = true → default.IsNormal) →
        Eval.Alike (scope.evaluate settings (.call mark name leading))
          (scope.evaluate settings (.call mark name (leading ++ defaults)))) := by
  have hsettled : Eval.Alike (scope.evaluate settings (.call mark name leading))
      (scope.callSettled settings mark name leading defaults) := by
    have henv := ignoresJournal_envUnder settings scope
    obtain ⟨left, hleft⟩ : ∃ left, settings.maxCallDepth - scope.depth = left + 1 :=
      ⟨settings.maxCallDepth - scope.depth - 1, by omega⟩
    have hleading : Eval.IgnoresJournal (Expr.evaluateAll (scope.envUnder settings) leading) :=
      Expr.ignoresJournal_evaluateAll fun e _ => Expr.ignoresJournal_replace henv e
    rw [evaluate, Expr.evaluate, Expr.ifValue_of_isValue rfl, Expr.replace, callSettled]
    refine Run.Matches.bind hleading fun values hok => ?_
    obtain ⟨output, output', hok⟩ := hok
    rw [Expr.evaluateAll_eq_mapM] at hok
    rw [← Run.length_of_mapM hok] at hremaining
    rw [← bind_assoc]
    refine Run.Matches.bind ?_ fun result _ => Run.respects_ofExcept _
    simp only [envUnder_call_of_callee hleft hcallee]
    exact Function.run_alike hglobal hnames hremaining hdefaults
      (Function.ignoresJournal_callWithin settings.defaultBadge (settings.maxCallDepth - scope.depth))
      (Function.ignoresJournal_callWithin settings.defaultBadge left) mark.span
  refine ⟨hsettled, fun h => ?_⟩
  rw [callSettled_eq h] at hsettled
  exact hsettled

/-- The defaults of a function: one that has to be evaluated and one that is a value as it is written. -/
def sampleDefaults : List Expr :=
  [.call {} "byte" [.integer {} 16], .text {} "x"]

/-- A function with a parameter that needs an argument and two that have these defaults. -/
def withDefaults : Scope :=
  Scope.global.define
    { name := "f"
      parameters := ⟨"a", none⟩ :: (["b", "c"].zip sampleDefaults).map fun pair => ⟨pair.1, some pair.2⟩
      body := [.expression (.returned {}
        (.array {} [.var {} "a", .comparison {} .equal (.var {} "b") (.var {} "a"), .var {} "c"]))]
      span := {} }

/-- A call with its first argument only does what it does with the settled defaults of the others. -/
theorem omitted_arguments_are_settled_defaults_sample :
    (withDefaults.evaluate {} (.call {} "f" [.integer {} 5]) {}).1.toOption.map Expr.render =
        some "[5, byte(0x000010) == 5, \"x\"]" ∧
      Eval.Alike (withDefaults.evaluate {} (.call {} "f" [.integer {} 5]))
        (withDefaults.evaluate {} (.call {} "f" ([.integer {} 5] ++ sampleDefaults))) := by
  refine ⟨by decide +kernel, ?_⟩
  have hbuiltin : ∀ name, Builtin.isName name = true → withDefaults.function? name = none := by
    intro name hname
    have hne : name ≠ "f" := by
      rintro rfl
      revert hname
      decide +kernel
    change (Bindings.insert "f" _ {}).find? name = none
    rw [Bindings.find?_insert, if_neg hne]
    rfl
  have hdefaults : ∀ default ∈ sampleDefaults, withDefaults.Independent "0" ["a", "b", "c"] default := by
    have hcalls := fun default hfree => callsNone_of_isFree (e := default) hbuiltin hfree "0"
    refine List.forall_mem_cons.mpr ⟨?_, List.forall_mem_singleton.mpr ?_⟩
    · exact ⟨rfl, by decide +kernel, hcalls _ (by decide +kernel)⟩
    · exact ⟨rfl, by decide +kernel, hcalls _ (by decide +kernel)⟩
  have hnormal : ∀ default ∈ sampleDefaults, default.isReduced = true → default.IsNormal := by
    refine List.forall_mem_cons.mpr ⟨fun hreduced => ?_, List.forall_mem_singleton.mpr fun _ => ?_⟩
    · cases hreduced
    · exact Expr.everywhere_of_children_nil rfl trivial
  exact (omitted_arguments_are_settled_defaults ⟨rfl, rfl⟩ (by decide) rfl (by decide) rfl hdefaults).2 hnormal

/-- How an outcome reads. -/
def outcomeText : Except Error Expr → String
  | .ok value => value.render
  | .error error => error.message

/-- A function whose default is a sum of two integers. -/
def withSumDefault : Scope :=
  Scope.global.define
    { name := "f"
      parameters := [⟨"x", some (.arithmetic {} .add (.integer {} 1) (.integer {} 2))⟩]
      body := [.expression (.returned {} (.comparison {} .equal (.var {} "x") (.integer {} 3)))]
      span := {} }

/-- A sum that is left to the default is not folded, and the body cannot compare it; written out, it is. -/
theorem omitted_sum_is_not_folded :
    outcomeText (withSumDefault.evaluate {} (.call {} "f" []) {}).1 =
        "Cannot apply '==' to Mathematic and IntegerConstant" ∧
      outcomeText (withSumDefault.evaluate {}
        (.call {} "f" [.arithmetic {} .add (.integer {} 1) (.integer {} 2)]) {}).1 = "true" := by
  refine ⟨?_, ?_⟩ <;> decide +kernel

end Scope

end TriggerScript
