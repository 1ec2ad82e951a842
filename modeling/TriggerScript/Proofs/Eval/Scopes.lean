import TriggerScript.Proofs.Eval.Builtins
import TriggerScript.Script

/-!
# Scopes, statements and calls

Statements change scopes, and calls make new ones. A discipline admits a scope if the functions are those of the script and
every variable has a name and a binding that it allows. Statements keep to such scopes, and statements, functions and the
environments of scopes agree by the discipline if what they are built from does.
-/

namespace TriggerScript

/-! ## Bindings and scopes -/

namespace Bindings

variable {α : Type} {bindings : Bindings α} {name other : String} {value : α}

/-- An erased name is found no more, and every other name as before. -/
theorem find?_erase : (bindings.erase name).find? other = if other = name then none else bindings.find? other := by
  unfold find? erase
  rw [List.find?_filter]
  split
  · rename_i heq
    rw [Option.map_eq_none_iff, List.find?_eq_none]
    intro entry _
    simp [heq]
  · rename_i hne
    congr 2
    funext entry
    by_cases h : entry.1 = other
    · simp [h, hne]
    · simp [h]

/-- An inserted name is found with its value, and every other name as before. -/
theorem find?_insert :
    (bindings.insert name value).find? other = if other = name then some value else bindings.find? other := by
  by_cases h : other = name
  · subst h
    simp [insert, find?]
  · have herase : (bindings.erase name).find? other = bindings.find? other := by rw [find?_erase, if_neg h]
    rw [if_neg h, ← herase]
    simp [insert, find?, Ne.symm h]

/-- A name that is bound has an entry. -/
theorem mem_of_find? (h : bindings.find? name = some value) : (name, value) ∈ bindings.entries := by
  unfold find? at h
  obtain ⟨entry, hentry, rfl⟩ := Option.map_eq_some_iff.mp h
  have hname : entry.1 = name := by simpa using List.find?_some hentry
  rw [← hname]
  exact List.mem_of_find?_eq_some hentry

end Bindings

namespace Scope

variable {scope : Scope} {name : String}

/-- The global frame is in the chain of frames. -/
theorem globalFrame_mem (scope : Scope) : scope.globalFrame ∈ scope.frames := by
  unfold globalFrame frames
  cases h : scope.outer.getLast? with
  | none => exact List.mem_cons_self
  | some frame => exact List.mem_cons_of_mem _ (List.mem_of_getLast? h)

/-- The value of a variable is its binding in one of the frames. -/
theorem exists_of_find? {value : Expr} (h : scope.find? name = some value) :
    ∃ frame ∈ scope.frames, frame.locals.find? name = some value :=
  List.exists_of_findSome?_eq_some h

/-- Changing variables of the innermost frame leaves the functions alone. -/
theorem functions_globalFrame (scope : Scope) (locals : Bindings Expr) :
    ({ scope with frame.locals := locals } : Scope).globalFrame.functions = scope.globalFrame.functions := by
  unfold globalFrame
  cases scope.outer.getLast? <;> rfl

theorem globalFrame_child (context : Context) (scope : Scope) : (scope.child context).globalFrame = scope.globalFrame := by
  unfold globalFrame child
  rw [List.getLast?_cons]
  cases scope.outer.getLast? <;> rfl

/-- What is called is a function of the script or a built-in one. -/
theorem exists_of_callee {function : Function} (h : scope.callee name = .function function) :
    ∃ target, scope.function? target = some function := by
  have hwithin : ∀ bound name, scope.calleeWithin bound name = .function function →
      ∃ target, scope.function? target = some function := by
    intro bound
    induction bound with
    | zero =>
      intro name h
      cases h
    | succ bound ih =>
      intro name h
      rw [calleeWithin] at h
      split at h
      · rename_i found hfound
        obtain rfl := Callee.function.inj h
        exact ⟨name, hfound⟩
      · split at h
        · cases h
        · split at h
          · split at h
            · cases h
            · exact ih _ h
          · cases h
  exact hwithin _ name h

end Scope

/-- A changed entry takes the place of the first entry under the same key; where there is none, a new one is added. -/
theorem changeEntry_eq_ok {key : Expr} {change : Expr → Except Error Expr} {new : Except Error Expr}
    {entries entries' : List (Expr × Expr)} (h : changeEntry key change new entries = .ok entries') :
    (∃ before candidate held held' after, entries = before ++ (candidate, held) :: after ∧
        (∀ entry ∈ before, entry.1.same key = false) ∧ candidate.same key = true ∧ change held = .ok held' ∧
        entries' = before ++ (candidate, held') :: after) ∨
      (∃ value, new = .ok value ∧ (∀ entry ∈ entries, entry.1.same key = false) ∧
        entries' = entries ++ [(key, value)]) := by
  induction entries generalizing entries' with
  | nil =>
    rw [changeEntry] at h
    obtain ⟨value, hvalue, h⟩ := bind_eq_ok.mp h
    obtain rfl := Except.ok.inj h
    exact .inr ⟨value, hvalue, List.forall_mem_nil _, rfl⟩
  | cons entry entries ih =>
    obtain ⟨candidate, held⟩ := entry
    rw [changeEntry] at h
    split at h
    · rename_i hsame
      obtain ⟨held', hheld, h⟩ := bind_eq_ok.mp h
      obtain rfl := Except.ok.inj h
      exact .inl ⟨[], candidate, held, held', entries, rfl, List.forall_mem_nil _, hsame, hheld, rfl⟩
    · rename_i hsame
      have hsame : candidate.same key = false := Bool.eq_false_iff.mpr hsame
      obtain ⟨rest, hrest, h⟩ := bind_eq_ok.mp h
      obtain rfl := Except.ok.inj h
      rcases ih hrest with ⟨before, candidate', held', held'', after, rfl, hbefore, hfound, hheld, rfl⟩ |
        ⟨value, hvalue, hnone, rfl⟩
      · refine .inl ⟨(candidate, held) :: before, candidate', held', held'', after, rfl, ?_, hfound, hheld, rfl⟩
        exact List.forall_mem_cons.mpr ⟨hsame, hbefore⟩
      · exact .inr ⟨value, hvalue, List.forall_mem_cons.mpr ⟨hsame, hnone⟩, rfl⟩

namespace Discipline

variable {d : Discipline} {depth : Nat}

/-- A scope at a depth of calls, with the functions of the script and variables that the discipline allows. -/
structure Admits (d : Discipline) (depth : Nat) (scope : Scope) : Prop where
  depth_eq : scope.depth = depth
  functions : scope.globalFrame.functions = d.table
  locals : ∀ frame ∈ scope.frames, ∀ name value, frame.locals.find? name = some value → d.name name ∧ d.Held value

namespace Admits

variable {scope : Scope} (h : d.Admits depth scope)
include h

/-- The functions of an admitted scope are those of the table. -/
theorem function? (name : String) : scope.function? name = d.table.find? name := by
  rw [Scope.function?, h.functions]

/-- The variables of an admitted scope are bound to what may be held. -/
theorem held {name : String} {value : Expr} (hfind : scope.find? name = some value) : d.Held value := by
  obtain ⟨frame, hframe, hlocal⟩ := Scope.exists_of_find? hfind
  exact (h.locals frame hframe name value hlocal).2

/-- Other variables of the innermost frame may take the place of its variables if they are allowed. -/
theorem withLocals {locals : Bindings Expr}
    (hlocals : ∀ name value, locals.find? name = some value → d.name name ∧ d.Held value) :
    d.Admits depth { scope with frame.locals := locals } := by
  refine ⟨h.depth_eq, (scope.functions_globalFrame locals).trans h.functions, ?_⟩
  intro frame hframe
  rcases List.mem_cons.mp hframe with rfl | hframe
  · exact hlocals
  · exact h.locals frame (List.mem_cons_of_mem _ hframe)

theorem assign {name : String} {value : Expr} (hname : d.name name) (hvalue : d.Held value) :
    d.Admits depth (scope.assign name value) := by
  refine h.withLocals fun other value' hfind => ?_
  rw [Bindings.find?_insert] at hfind
  split at hfind
  · rename_i heq
    obtain rfl := Option.some.inj hfind
    exact ⟨heq ▸ hname, hvalue⟩
  · exact h.locals scope.frame List.mem_cons_self other value' hfind

theorem erase (name : String) : d.Admits depth (scope.erase name) := by
  refine h.withLocals fun other value' hfind => ?_
  rw [Bindings.find?_erase] at hfind
  split at hfind
  · cases hfind
  · exact h.locals scope.frame List.mem_cons_self other value' hfind

/-- An admitted scope stays admitted when a name is bound as before, if that was allowed. -/
theorem restore {name : String} {value? : Option Expr} (hname : d.name name)
    (hvalue : ∀ value, value? = some value → d.Held value) : d.Admits depth (scope.restore name value?) := by
  cases value? with
  | none => exact h.erase name
  | some value => exact h.assign hname (hvalue value rfl)

theorem child (context : Context) : d.Admits depth (scope.child context) := by
  refine ⟨h.depth_eq, (congrArg Frame.functions (Scope.globalFrame_child context scope)).trans h.functions, ?_⟩
  intro frame hframe
  rcases List.mem_cons.mp hframe with rfl | hframe
  · intro name value hfind
    cases hfind
  · exact h.locals frame hframe

/-- A call from an admitted scope opens an admitted one, one call deeper. -/
theorem call (name : String) (span : Span) : d.Admits (depth + 1) (scope.call name span) := by
  refine ⟨congrArg (· + 1) h.depth_eq, h.functions, ?_⟩
  intro frame hframe
  rcases List.mem_cons.mp hframe with rfl | hframe
  · intro name value hfind
    cases hfind
  · rw [List.mem_singleton.mp hframe]
    exact h.locals _ scope.globalFrame_mem

end Admits

/-! ## Statements -/

/-- Two runs of statements agree by the discipline, in scopes that it admits. -/
abbrev ExecAgree (d : Discipline) (depth : Nat) {α : Type} (post : α → Prop) (run run' : Exec α) : Prop :=
  Run.Agree d.exempt (fun activation => d.output activation.output ∧ d.Admits depth activation.scope) post run run'

section Steps

variable {α : Type}

/-- Evaluations inside of statements agree if they do in every admitted scope. -/
theorem agree_eval {run run' : Scope → Eval α} {post : α → Prop}
    (h : ∀ scope, d.Admits depth scope → d.Agree post (run scope) (run' scope)) :
    d.ExecAgree depth post (Exec.eval run) (Exec.eval run') := by
  rintro ⟨scope, output⟩ ⟨houtput, hscope⟩
  obtain ⟨hout, hpost, hsame⟩ := h scope hscope output houtput
  refine ⟨⟨hout, hscope⟩, hpost, ?_⟩
  rcases hsame with hsame | hexempt
  · left
    simp only [Exec.eval, hsame]
  · exact .inr hexempt

/-- A change of the scope that keeps it admitted agrees with itself. -/
theorem agree_changeScope {change : Scope → Scope}
    (h : ∀ scope, d.Admits depth scope → d.Admits depth (change scope)) :
    d.ExecAgree depth (fun _ => True) (Exec.changeScope change) (Exec.changeScope change) :=
  Run.agree_modify fun activation hinv => ⟨hinv.1, h activation.scope hinv.2⟩

theorem agree_scope : d.ExecAgree depth (d.Admits depth) Exec.scope Exec.scope := by
  rintro activation hinv
  refine ⟨hinv, ?_, .inl rfl⟩
  intro scope hscope
  obtain rfl := Except.ok.inj hscope
  exact hinv.2

end Steps

/-- A binding with a value under a path of keys is a binding. -/
theorem Lawful.held_storeEntry (hd : d.Lawful) {name : String} {value : Expr} {keys : List Expr} {container stored : Expr}
    (hvalue : d.Made value) (hkeys : ∀ key ∈ keys, d.Made key) (hcontainer : d.Held container)
    (h : storeEntry name value keys container = .ok stored) : d.Held stored := by
  induction keys generalizing container stored with
  | nil =>
    obtain rfl := Except.ok.inj h
    exact hd.held hvalue
  | cons key keys ih =>
    rw [List.forall_mem_cons] at hkeys
    cases container with
    | dictionary mark entries =>
      rw [storeEntry] at h
      obtain ⟨entries', hentries, h⟩ := bind_eq_ok.mp h
      obtain rfl := Except.ok.inj h
      have hparts := Expr.forall_children_dictionary.mp (Expr.everywhere_iff.mp hcontainer).2
      rcases changeEntry_eq_ok hentries with ⟨before, candidate, held, held', after, rfl, _, _, hheld, rfl⟩ |
        ⟨new, hnew, hfresh, rfl⟩
      · rw [List.forall_mem_append, List.forall_mem_cons] at hparts
        refine Expr.everywhere_iff.mpr ⟨hd.held_dictionary hcontainer.root (.inl (by simp)), ?_⟩
        rw [Expr.forall_children_dictionary, List.forall_mem_append, List.forall_mem_cons]
        exact ⟨hparts.1, ⟨hparts.2.1.1, ih hkeys.2 hparts.2.1.2 hheld⟩, hparts.2.2⟩
      · have hnew : d.Held new := by
          split at hnew
          · obtain rfl := Except.ok.inj hnew
            exact hd.held hvalue
          · cases hnew
        refine Expr.everywhere_iff.mpr ⟨hd.held_dictionary hcontainer.root (.inr ⟨key, by simp, ?_⟩), ?_⟩
        · intro other hother
          obtain ⟨entry, hentry, rfl⟩ := List.mem_map.mp hother
          exact hfresh entry hentry
        · rw [Expr.forall_children_dictionary, List.forall_mem_append, List.forall_mem_singleton]
          exact ⟨hparts, hd.held hkeys.1, hnew⟩
    | _ => cases h

section Statements

variable {envOf envOf' : Scope → Env} (hd : d.Lawful)
  (henv : ∀ scope, d.Admits depth scope → d.EnvAgree (envOf scope) (envOf' scope))
include hd henv

/-- Trees that may be written are evaluated alike inside of a statement. -/
theorem agree_evaluateAll_eval {es : List Expr} (hes : ∀ e ∈ es, d.Written e) :
    d.ExecAgree depth (fun values => ∀ value ∈ values, d.Made value)
      (Exec.eval fun scope => Expr.evaluateAll (envOf scope) es)
      (Exec.eval fun scope => Expr.evaluateAll (envOf' scope) es) :=
  agree_eval fun scope hscope => agree_evaluateAll fun e he => agree_replace hd (henv scope hscope) (hes e he)

/-- A tree that may be written is evaluated alike inside of a statement. -/
theorem agree_evaluate_eval {e : Expr} (he : d.Written e) :
    d.ExecAgree depth d.Made (Exec.eval fun scope => e.evaluate (envOf scope))
      (Exec.eval fun scope => e.evaluate (envOf' scope)) :=
  agree_eval fun scope hscope => agree_evaluate hd (henv scope hscope) he

/-- An assignment to a name that may be bound agrees with itself in environments that agree. -/
theorem agree_assign {name : String} {indices : List Expr} {value : Expr} (hname : d.name name)
    (hindices : ∀ index ∈ indices, d.Written index) (hvalue : d.Made value) :
    d.ExecAgree depth (fun _ => True) (Exec.assign envOf name indices value)
      (Exec.assign envOf' name indices value) := by
  unfold Exec.assign
  split
  · exact agree_changeScope fun scope hscope => hscope.assign hname (hd.held hvalue)
  · refine (agree_evaluateAll_eval hd henv hindices).bind fun keys hkeys => ?_
    refine agree_scope.bind fun scope hscope => ?_
    cases hfind : scope.find? name with
    | none => exact Run.agree_fail _
    | some container =>
      refine (Run.agree_ofExcept fun stored hstored =>
        hd.held_storeEntry hvalue hkeys (hscope.held hfind) hstored).bind fun stored hstored => ?_
      exact agree_changeScope fun scope hscope => hscope.assign hname hstored

end Statements

/-- A loop agrees if its body does. -/
theorem agree_forEach (hd : d.Lawful) {name : String} {items : List Expr} {body body' : Exec (Option Expr)}
    (hname : d.name name) (hitems : ∀ item ∈ items, d.Made item) (hbody : d.ExecAgree depth d.MadeOption body body') :
    d.ExecAgree depth d.MadeOption (Exec.forEach name items body) (Exec.forEach name items body') := by
  have hforItems : d.ExecAgree depth d.MadeOption (Exec.forItems name body items) (Exec.forItems name body' items) := by
    induction items with
    | nil => exact Run.agree_pure madeOption_none
    | cons item items ih =>
      rw [List.forall_mem_cons] at hitems
      refine (agree_changeScope fun scope hscope => hscope.assign hname (hd.held hitems.1)).bind fun _ _ => ?_
      refine hbody.bind fun result hresult => ?_
      cases result with
      | some value => exact Run.agree_pure hresult
      | none => exact ih hitems.2
  refine agree_scope.bind fun scope hscope => ?_
  refine (agree_changeScope fun scope hscope => hscope.erase name).bind fun _ _ => ?_
  refine hforItems.andFinally fun activation hinv => ⟨hinv.1, hinv.2.restore hname ?_⟩
  intro value hvalue
  exact (hscope.locals scope.frame List.mem_cons_self name value hvalue).2

mutual

/-- Statements agree in environments that do. -/
theorem agree_exec (hd : d.Lawful) {envOf envOf' : Scope → Env}
    (henv : ∀ scope, d.Admits depth scope → d.EnvAgree (envOf scope) (envOf' scope)) :
    ∀ {s : Stmt}, d.Admissible s → d.ExecAgree depth d.MadeOption (s.exec envOf) (s.exec envOf')
  | .assign name indices value, hs => by
    obtain ⟨hname, hindices, hvalue⟩ := hs
    simp only [Stmt.exec]
    refine (agree_evaluate_eval hd henv hvalue).bind fun value hvalue => ?_
    refine (agree_assign hd henv hname hindices hvalue).bind fun _ _ => ?_
    exact Run.agree_pure madeOption_none
  | .define .., _ => Run.agree_fail _
  | .loop name collection body, hs => by
    obtain ⟨hname, hcollection, hbody⟩ := hs
    simp only [Stmt.exec]
    split
    · exact Run.agree_fail _
    · refine (agree_evaluate_eval hd henv hcollection).bind fun collected hcollected => ?_
      cases hitems : collected.items? with
      | none => exact Run.agree_fail _
      | some items => exact agree_forEach hd hname (made_of_items? hcollected hitems) (agree_execBlock hd henv hbody)
  | .choose condition yes no, hs => by
    obtain ⟨hcondition, hyes, hno⟩ := hs
    simp only [Stmt.exec]
    have htest : d.ExecAgree depth (fun _ => True) (Exec.eval fun scope => condition.isTrue (envOf scope))
        (Exec.eval fun scope => condition.isTrue (envOf' scope)) :=
      agree_eval fun scope hscope => agree_isTrue hd (henv scope hscope) hcondition
    refine htest.bind fun truth _ => ?_
    cases truth with
    | true => exact agree_execBlock hd henv hyes
    | false => exact agree_execBlock hd henv hno
  | .expression e, hs => by
    cases e with
    | returned mark value =>
      simp only [Stmt.exec]
      exact (agree_evaluate_eval hd henv hs).bind fun value hvalue => Run.agree_pure (madeOption_some hvalue)
    | call mark name args =>
      simp only [Stmt.exec]
      refine (agree_evaluateAll_eval hd henv hs).bind fun values hvalues => ?_
      have hcall : d.ExecAgree depth d.MadeOption (Exec.eval fun scope => (envOf scope).call name values mark.span)
          (Exec.eval fun scope => (envOf' scope).call name values mark.span) :=
        agree_eval fun scope hscope => (henv scope hscope).call name values mark.span hvalues
      exact hcall.bind fun _ _ => Run.agree_pure madeOption_none
    | _ => exact Run.agree_fail _

/-- A block of admissible statements runs alike in environments that agree. -/
theorem agree_execBlock (hd : d.Lawful) {envOf envOf' : Scope → Env}
    (henv : ∀ scope, d.Admits depth scope → d.EnvAgree (envOf scope) (envOf' scope)) :
    ∀ {ss : List Stmt}, d.AdmissibleBlock ss →
      d.ExecAgree depth d.MadeOption (Stmt.execBlock envOf ss) (Stmt.execBlock envOf' ss)
  | [], _ => Run.agree_pure madeOption_none
  | s :: ss, hs => by
    rw [Stmt.execBlock, Stmt.execBlock]
    refine (agree_exec hd henv hs.1).bind fun result hresult => ?_
    cases result with
    | some value => exact Run.agree_pure hresult
    | none => exact agree_execBlock hd henv hs.2

end

/-! ## Functions -/

section Functions

variable {function : Function} {values : List Expr} {span : Span} {scope : Scope}

/-- Parameters are bound to values and to defaults, and those bound to defaults are named. -/
theorem Lawful.gives_bindParameters (hd : d.Lawful) (fname : String) (span : Span) {parameters : List Parameter}
    (hnames : ∀ parameter ∈ parameters, d.name parameter.name)
    (hdefaults : ∀ parameter ∈ parameters, ∀ default, parameter.default? = some default → d.Held default)
    (hvalues : ∀ value ∈ values, d.Made value) (hscope : d.Admits depth scope) :
    Gives (Function.bindParameters fname span parameters values scope) fun bound =>
      d.Admits depth bound.1 ∧ ∀ entry ∈ bound.2, d.name entry.1 := by
  induction parameters generalizing values scope with
  | nil => exact gives_ok ⟨hscope, List.forall_mem_nil _⟩
  | cons parameter parameters ih =>
    rw [List.forall_mem_cons] at hnames hdefaults
    cases values with
    | nil =>
      rw [Function.bindParameters]
      cases hdefault : parameter.default? with
      | none => exact gives_error _
      | some default =>
        have hbound := hscope.assign hnames.1 (hdefaults.1 default hdefault)
        refine (ih hnames.2 hdefaults.2 (List.forall_mem_nil _) hbound).bind fun bound hbound => ?_
        exact gives_ok ⟨hbound.1, List.forall_mem_cons.mpr ⟨hnames.1, hbound.2⟩⟩
    | cons value values =>
      rw [List.forall_mem_cons] at hvalues
      rw [Function.bindParameters]
      exact ih hnames.2 hdefaults.2 hvalues.2 (hscope.assign hnames.1 (hd.held hvalues.1))

variable {envOf envOf' : Scope → Env}

/-- The defaults of parameters are worked out alike in environments that agree. -/
theorem agree_evaluateDefaults (hd : d.Lawful)
    (henv : ∀ scope, d.Admits depth scope → d.EnvAgree (envOf scope) (envOf' scope)) {defaulted : List (String × Span)}
    (hnames : ∀ entry ∈ defaulted, d.name entry.1) (hscope : d.Admits depth scope) :
    d.Agree (d.Admits depth) (Function.evaluateDefaults envOf defaulted scope)
      (Function.evaluateDefaults envOf' defaulted scope) := by
  induction defaulted generalizing scope with
  | nil => exact Run.agree_pure hscope
  | cons entry defaulted ih =>
    rw [List.forall_mem_cons] at hnames
    refine ((henv scope hscope).resolve entry.1 entry.2).bind fun value hvalue => ?_
    exact ih hnames.2 (hscope.assign hnames.1 (hd.held hvalue))

/-- A function runs alike in environments that agree in the scopes of its body. -/
theorem agree_run (hd : d.Lawful)
    (henv : ∀ inner, d.Admits (depth + 1) inner → d.EnvAgree (envOf inner) (envOf' inner))
    (hscope : d.Admits depth scope) (hfunction : d.Callable function) (hvalues : ∀ value ∈ values, d.Made value) :
    d.Agree d.MadeOption (function.run envOf scope values span) (function.run envOf' scope values span) := by
  unfold Function.run
  split
  · exact Run.agree_fail _
  · refine (Run.agree_modify fun output houtput => hd.output_called houtput).bind fun _ _ => ?_
    have hbind := hd.gives_bindParameters function.name span hfunction.names hfunction.defaults hvalues
      (hscope.call function.name span)
    refine (Run.agree_ofExcept hbind).bind fun bound hbound => ?_
    refine (agree_evaluateDefaults hd henv hbound.2 hbound.1).bind fun inner hinner => ?_
    intro output houtput
    obtain ⟨hout, hpost, hsame⟩ := agree_execBlock hd henv hfunction.body { scope := inner, output } ⟨houtput, hinner⟩
    refine ⟨hout.1, hpost, ?_⟩
    rcases hsame with hsame | hexempt
    · left
      simp only [hsame]
    · exact .inr hexempt

end Functions

/-! ## Environments -/

section Environments

variable {scope : Scope} {name : String} {values : List Expr} {span : Span}

/-- A name is resolved alike if what is bound to it is worked out alike. -/
theorem agree_resolveWith (hd : d.Lawful) (hscope : d.Admits depth scope) {workOut workOut' : Scope → Expr → Eval Expr}
    (hwork : ∀ e, scope.find? name = some e → scope.isResolving name = false → d.Written e →
      d.Agree d.Made (workOut (scope.child (.resolving name)) e) (workOut' (scope.child (.resolving name)) e)) :
    d.Agree d.Made (scope.resolveWith workOut name span) (scope.resolveWith workOut' name span) := by
  unfold Scope.resolveWith
  cases hfind : scope.find? name with
  | none =>
    dsimp only
    split
    · rename_i hdefined
      rw [Bool.or_eq_true, hscope.function?] at hdefined
      exact Run.agree_pure (hd.made_leaf hdefined rfl)
    · exact Run.agree_fail _
  | some value =>
    have hheld := hscope.held hfind
    dsimp only
    split
    · rename_i hreduced
      exact Run.agree_pure (hd.made_of_held hheld hreduced)
    · rename_i hreduced
      split
      · exact Run.agree_fail _
      · rename_i hresolving
        exact hwork value hfind (Bool.eq_false_iff.mpr hresolving)
          (hd.written_of_held hheld (Bool.eq_false_iff.mpr hreduced))

/-- A name is called alike if functions are called and applied alike. -/
theorem agree_invokeWith (hd : d.Lawful) (hscope : d.Admits depth scope) (hvalues : ∀ value ∈ values, d.Made value)
    {caller caller' : Caller} (hbadge : caller.badge = caller'.badge)
    (hcall : ∀ function, d.Callable function →
      d.Agree d.MadeOption (caller.call scope function values span) (caller'.call scope function values span))
    {apply apply' : Scope → String → Expr → Eval (Option Expr)}
    (happly : ∀ mark predicate item, Expr.functionRef mark predicate ∈ values → d.Made item →
      d.Agree d.MadeOption (apply (scope.child (.iteration predicate)) predicate item)
        (apply' (scope.child (.iteration predicate)) predicate item)) :
    d.Agree d.MadeOption (scope.invokeWith caller apply name values span)
      (scope.invokeWith caller' apply' name values span) := by
  unfold Scope.invokeWith
  cases hcallee : scope.callee name with
  | function function =>
    obtain ⟨target, htarget⟩ := Scope.exists_of_callee hcallee
    rw [hscope.function?] at htarget
    exact hcall function (hd.callable htarget)
  | builtin builtin =>
    rw [hbadge]
    exact agree_apply hd hvalues happly
  | unknown name => exact Run.agree_fail _

variable {caller caller' : Caller}

/-- A name is called alike if the functions of the script are. -/
theorem agree_invoke (hd : d.Lawful) (hbadge : caller.badge = caller'.badge)
    (hcall : ∀ scope function values span, d.Admits depth scope → d.Callable function →
      (∀ value ∈ values, d.Made value) →
      d.Agree d.MadeOption (caller.call scope function values span) (caller'.call scope function values span))
    (hscope : d.Admits depth scope) (hvalues : ∀ value ∈ values, d.Made value) :
    d.Agree d.MadeOption (scope.invoke caller name values span) (scope.invoke caller' name values span) := by
  refine agree_invokeWith hd hscope hvalues hbadge (fun function hfunction => hcall _ _ _ _ hscope hfunction hvalues) ?_
  intro mark predicate item _ hitem
  have hitem : ∀ value ∈ [item], d.Made value := List.forall_mem_singleton.mpr hitem
  refine agree_invokeWith hd (hscope.child _) hitem hbadge
    (fun function hfunction => hcall _ _ _ _ (hscope.child _) hfunction hitem) ?_
  exact fun _ _ _ _ _ => Run.agree_pure madeOption_none

/-- The environments of a scope agree if their callers do. -/
theorem agree_env (hd : d.Lawful) (hbadge : caller.badge = caller'.badge)
    (hcall : ∀ scope function values span, d.Admits depth scope → d.Callable function →
      (∀ value ∈ values, d.Made value) →
      d.Agree d.MadeOption (caller.call scope function values span) (caller'.call scope function values span))
    (hscope : d.Admits depth scope) : d.EnvAgree (scope.env caller) (scope.env caller') := by
  have hwithin : ∀ bound scope, d.Admits depth scope →
      d.EnvAgree (scope.envWithin caller bound) (scope.envWithin caller' bound) := by
    intro bound
    induction bound with
    | zero =>
      intro scope hscope
      simp only [Scope.envWithin]
      refine ⟨?_, fun name values span hvalues => agree_invoke hd hbadge hcall hscope hvalues⟩
      intro name span
      dsimp only
      exact agree_resolveWith hd hscope fun _ _ _ _ => Run.agree_fail _
    | succ bound ih =>
      intro scope hscope
      simp only [Scope.envWithin]
      refine ⟨?_, fun name values span hvalues => agree_invoke hd hbadge hcall hscope hvalues⟩
      intro name span
      dsimp only
      refine agree_resolveWith hd hscope fun e _ _ he => ?_
      exact agree_replace hd (ih _ (hscope.child _)) he
  exact hwithin _ scope hscope

end Environments

/-- Functions are called alike with two bounds on the calls inside one another, where the smaller one is not exceeded. -/
theorem agree_callWithin (hd : d.Lawful) {badge : String} {bound bound' : Nat} (hle : bound ≤ bound')
    (hexempt : bound ≠ bound' → ∀ name span, d.exempt (.evaluation (.depthExceeded name) span)) {scope : Scope}
    {function : Function} {values : List Expr} {span : Span} (hscope : d.Admits depth scope)
    (hfunction : d.Callable function) (hvalues : ∀ value ∈ values, d.Made value) :
    d.Agree d.MadeOption (Function.callWithin badge bound scope function values span)
      (Function.callWithin badge bound' scope function values span) := by
  induction bound generalizing bound' depth scope function values span with
  | zero =>
    by_cases heq : 0 = bound'
    · subst heq
      exact Run.agree_fail _
    · intro output houtput
      refine ⟨houtput, ?_, .inr ⟨_, rfl, hexempt heq _ _⟩⟩
      intro result hresult
      cases hresult
  | succ bound ih =>
    obtain ⟨bound', rfl⟩ : ∃ n, bound' = n + 1 := ⟨bound' - 1, by omega⟩
    refine agree_run hd (fun inner hinner => agree_env hd rfl ?_ hinner) hscope hfunction hvalues
    intro scope function values span hscope hfunction hvalues
    exact ih (by omega) (fun hne => hexempt (by omega)) hscope hfunction hvalues

/-- Under a discipline, the environment of a scope agrees with itself: names and calls have values. -/
theorem agree_envUnder (hd : d.Lawful) (settings : Settings) {scope : Scope} (hscope : d.Admits depth scope) :
    d.EnvAgree (scope.envUnder settings) (scope.envUnder settings) := by
  refine agree_env hd rfl ?_ hscope
  intro scope function values span hscope hfunction hvalues
  exact agree_callWithin hd (Nat.le_refl _) (fun hne => absurd rfl hne) hscope hfunction hvalues

/-- Under a discipline, evaluation gives values. -/
theorem made_of_evaluate (hd : d.Lawful) {settings : Settings} {scope : Scope} (hscope : d.Admits depth scope) {e v : Expr}
    (he : d.Written e) {output output' : Output} (houtput : d.output output)
    (h : scope.evaluate settings e output = (.ok v, output')) : d.Made v := by
  have hagree := agree_evaluate hd (agree_envUnder hd settings hscope) he output houtput
  exact hagree.2.1 v (congrArg Prod.fst h)

end Discipline

end TriggerScript
