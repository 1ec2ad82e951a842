import TriggerScript.Proofs.Eval.Scopes

/-!
# What blocks change

A block changes variables of the innermost frame only, and of these only the ones that its assignments name. The variable of
a loop is no exception: it is bound to one item after the other while the loop runs, and afterwards bound as before. Whether
a block ends, returns or fails makes no difference.
-/

namespace TriggerScript

/-! ## Scopes that differ in some names -/

namespace Scope

variable {scope : Scope} {name other : String}

/-- After an assignment, the name is bound to the value and every other name as before. -/
theorem local?_assign {value : Expr} :
    (scope.assign name value).local? other = if other = name then some value else scope.local? other :=
  Bindings.find?_insert

/-- After an erasure, the name is unbound and every other name bound as before. -/
theorem local?_erase : (scope.erase name).local? other = if other = name then none else scope.local? other :=
  Bindings.find?_erase

/-- A restored name is bound as it was, or unbound if it was not, and every other name as before. -/
theorem local?_restore {value? : Option Expr} :
    (scope.restore name value?).local? other = if other = name then value? else scope.local? other := by
  cases value? with
  | some value => exact local?_assign
  | none => exact local?_erase

/-- Two scopes that differ at most in what the innermost frame binds some names to. -/
structure SameBut (names : List String) (before after : Scope) : Prop where
  /-- The innermost frame is for the same. -/
  context : after.frame.context = before.frame.context
  /-- It has the same functions. -/
  functions : after.frame.functions = before.frame.functions
  /-- The frames around it are the same. -/
  outer : after.outer = before.outer
  /-- The number of calls that are open is the same. -/
  depth : after.depth = before.depth
  /-- Any other name is bound to the same or remains unbound. -/
  locals : ∀ {name}, name ∉ names → after.local? name = before.local? name

namespace SameBut

variable {names : List String} {middle before after : Scope}

theorem refl (names : List String) (scope : Scope) : SameBut names scope scope :=
  ⟨rfl, rfl, rfl, rfl, fun _ => rfl⟩

theorem trans (h : SameBut names before middle) (h' : SameBut names middle after) : SameBut names before after where
  context := h'.context.trans h.context
  functions := h'.functions.trans h.functions
  outer := h'.outer.trans h.outer
  depth := h'.depth.trans h.depth
  locals hname := (h'.locals hname).trans (h.locals hname)

theorem assign (scope : Scope) (hname : name ∈ names) (value : Expr) : SameBut names scope (scope.assign name value) := by
  refine ⟨rfl, rfl, rfl, rfl, fun {other} hother => ?_⟩
  rw [local?_assign, if_neg]
  rintro rfl
  exact hother hname

theorem erase (scope : Scope) (hname : name ∈ names) : SameBut names scope (scope.erase name) := by
  refine ⟨rfl, rfl, rfl, rfl, fun {other} hother => ?_⟩
  rw [local?_erase, if_neg]
  rintro rfl
  exact hother hname

/-- Giving a name back the binding it had leaves the other names to differ. -/
theorem restore (h : SameBut (name :: names) before after) :
    SameBut names before (after.restore name (before.local? name)) := by
  have hlocals : ∀ {other}, other ∉ names →
      (after.restore name (before.local? name)).local? other = before.local? other := by
    intro other hother
    rw [local?_restore]
    split
    · rename_i heq
      rw [heq]
    · rename_i hne
      exact h.locals (List.not_mem_cons_of_ne_of_not_mem hne hother)
  cases hbound : before.local? name with
  | some value =>
    rw [hbound] at hlocals
    exact ⟨h.context, h.functions, h.outer, h.depth, hlocals⟩
  | none =>
    rw [hbound] at hlocals
    exact ⟨h.context, h.functions, h.outer, h.depth, hlocals⟩

end SameBut

end Scope

/-! ## What a run changes -/

namespace Exec

variable {α β : Type} {names : List String} {name : String} {items : List Expr} {body : Exec (Option Expr)}

/-- A run that, however it ends, changes no other variables than some in the innermost frame. -/
def Keeps (names : List String) (run : Exec α) : Prop :=
  ∀ activation, Scope.SameBut names activation.scope (run activation).2.scope

theorem keeps_pure (a : α) : Keeps names (pure a) :=
  fun activation => .refl names activation.scope

theorem keeps_fail (error : Error) : Keeps names (Run.fail error : Exec α) :=
  fun activation => .refl names activation.scope

/-- A computation without state keeps everything. -/
theorem keeps_ofExcept (result : Except Error α) : Keeps names (Run.ofExcept result) :=
  fun activation => .refl names activation.scope

/-- Evaluating changes no variables. -/
theorem keeps_eval (run : Scope → Eval α) : Keeps names (eval run) :=
  fun activation => .refl names activation.scope

theorem keeps_scope : Keeps names scope :=
  fun activation => .refl names activation.scope

/-- Binding one of the names keeps the others. -/
theorem keeps_changeScope_assign (hname : name ∈ names) (value : Expr) : Keeps names (changeScope (·.assign name value)) :=
  fun activation => .assign activation.scope hname value

/-- Runs one after the other keep what each of them keeps. -/
theorem Keeps.bind {run : Exec α} {next : α → Exec β} (hrun : Keeps names run) (hnext : ∀ a, Keeps names (next a)) :
    Keeps names (run >>= next) := by
  intro activation
  have hfirst := hrun activation
  change Scope.SameBut names activation.scope (Run.bind run next activation).2.scope
  unfold Run.bind
  generalize run activation = outcome at hfirst
  obtain ⟨result, after⟩ := outcome
  cases result with
  | ok a => exact hfirst.trans (hnext a after)
  | error error => exact hfirst

/-- An assignment keeps everything but the variable it names, whether or not it succeeds. -/
theorem keeps_assign (envOf : Scope → Env) (hname : name ∈ names) (indices : List Expr) (value : Expr) :
    Keeps names (assign envOf name indices value) := by
  unfold assign
  split
  · exact keeps_changeScope_assign hname value
  · refine (keeps_eval _).bind fun keys => keeps_scope.bind fun scope => ?_
    cases scope.find? name with
    | none => exact keeps_fail _
    | some container => exact (keeps_ofExcept _).bind fun changed => keeps_changeScope_assign hname changed

/-- A loop over items keeps what its body keeps, its variable apart. -/
theorem keeps_forItems (hname : name ∈ names) (hbody : Keeps names body) (items : List Expr) :
    Keeps names (forItems name body items) := by
  induction items with
  | nil => exact keeps_pure none
  | cons item items ih =>
    rw [forItems]
    refine (keeps_changeScope_assign hname item).bind fun _ => hbody.bind fun result => ?_
    cases result with
    | some value => exact keeps_pure _
    | none => exact ih

/-- A loop runs its block for the items in a scope without its variable, and gives the variable its binding back. -/
theorem forEach_snd (activation : Activation) :
    (forEach name items body activation).2.scope =
      (forItems name body items { activation with scope := activation.scope.erase name }).2.scope.restore name
        (activation.scope.local? name) :=
  rfl

/-- The variable of a loop need not be among those that change. -/
theorem keeps_forEach (hbody : Keeps (name :: names) body) (items : List Expr) : Keeps names (forEach name items body) := by
  intro activation
  have hname : name ∈ name :: names := List.mem_cons_self
  rw [forEach_snd]
  refine ((Scope.SameBut.erase activation.scope hname).trans ?_).restore
  exact keeps_forItems hname hbody items { activation with scope := activation.scope.erase name }

end Exec

namespace Stmt

variable {envOf envOf' : Scope → Env} {names : List String}

mutual

/-- The names that the assignments in a statement bind, at any depth. A definition inside a block is refused, so nothing in
it counts. -/
def targets : Stmt → List String
  | .assign name _ _ => [name]
  | .define .. => []
  | .loop _ _ body => blockTargets body
  | .choose _ yes no => blockTargets yes ++ blockTargets no
  | .expression _ => []

/-- The names that the assignments in a block bind. -/
def blockTargets : List Stmt → List String
  | [] => []
  | s :: ss => s.targets ++ blockTargets ss

end

mutual

/-- Statements change what their assignments name. -/
theorem keeps_exec : ∀ {names : List String} {s : Stmt}, s.targets ⊆ names → Exec.Keeps names (s.exec envOf)
  | names, .assign name indices value, hs => by
    have hname : name ∈ names := hs List.mem_cons_self
    simp only [exec]
    exact (Exec.keeps_eval _).bind fun value =>
      (Exec.keeps_assign envOf hname indices value).bind fun _ => Exec.keeps_pure none
  | _, .define .., _ => Exec.keeps_fail _
  | names, .loop name collection body, hs => by
    have hbody : Exec.Keeps (name :: names) (execBlock envOf body) :=
      keeps_execBlock fun _ h => List.mem_cons_of_mem name (hs h)
    simp only [exec]
    split
    · exact Exec.keeps_fail _
    · refine (Exec.keeps_eval _).bind fun collected => ?_
      cases collected.items? with
      | none => exact Exec.keeps_fail _
      | some items => exact Exec.keeps_forEach hbody items
  | _, .choose condition yes no, hs => by
    obtain ⟨hyes, hno⟩ := List.append_subset.mp hs
    simp only [exec]
    refine (Exec.keeps_eval _).bind fun truth => ?_
    cases truth with
    | true => exact keeps_execBlock hyes
    | false => exact keeps_execBlock hno
  | _, .expression e, _ => by
    cases e with
    | returned mark value =>
      simp only [exec]
      exact (Exec.keeps_eval _).bind fun _ => Exec.keeps_pure _
    | call mark name args =>
      simp only [exec]
      exact (Exec.keeps_eval _).bind fun _ => (Exec.keeps_eval _).bind fun _ => Exec.keeps_pure none
    | _ => exact Exec.keeps_fail _

/-- Blocks change what the assignments in them name. -/
theorem keeps_execBlock :
    ∀ {names : List String} {ss : List Stmt}, blockTargets ss ⊆ names → Exec.Keeps names (execBlock envOf ss)
  | _, [], _ => Exec.keeps_pure none
  | _, s :: ss, hss => by
    obtain ⟨hs, hrest⟩ := List.append_subset.mp hss
    rw [execBlock]
    refine (keeps_exec hs).bind fun result => ?_
    cases result with
    | some value => exact Exec.keeps_pure _
    | none => exact keeps_execBlock hrest

end

mutual

/-- What assignments name is among what the check before a loop looks for. -/
theorem targets_subset_modifications : ∀ s : Stmt, s.targets ⊆ s.modifications
  | .assign .. => List.Subset.refl _
  | .define .. => List.nil_subset _
  | .loop name _ body => List.Subset.trans (blockTargets_subset_modifications body) (List.subset_cons_self name _)
  | .choose _ yes no =>
    List.append_subset.mpr ⟨List.subset_append_of_subset_left _ (blockTargets_subset_modifications yes),
      List.subset_append_of_subset_right _ (blockTargets_subset_modifications no)⟩
  | .expression _ => List.nil_subset _

/-- The targets of a block are among the names that it may modify. -/
theorem blockTargets_subset_modifications : ∀ ss : List Stmt, blockTargets ss ⊆ blockModifications ss
  | [] => List.nil_subset _
  | s :: ss =>
    List.append_subset.mpr ⟨List.subset_append_of_subset_left _ s.targets_subset_modifications,
      List.subset_append_of_subset_right _ (blockTargets_subset_modifications ss)⟩

end

/-- A loop leaves its variable as it found it: if its block assigns the variable, the loop is refused. -/
theorem local?_loop (name : String) (collection : Expr) (body : List Stmt) (activation : Activation) :
    ((loop name collection body).exec envOf activation).2.scope.local? name = activation.scope.local? name := by
  by_cases hrefused : (blockModifications body).contains name = true
  · rw [exec, if_pos hrefused]
    rfl
  · refine (keeps_exec (List.Subset.refl _) activation).locals fun htarget => hrefused ?_
    exact List.contains_iff_mem.mpr (blockTargets_subset_modifications body htarget)

end Stmt

/-! ## The states that a block goes through -/

/-- The items that a block is run for, each with the state in which the block starts. -/
def Exec.iterations (name : String) (body : Exec (Option Expr)) : List Expr → Activation → List (Expr × Activation)
  | [], _ => []
  | item :: items, activation =>
    let start := { activation with scope := activation.scope.assign name item }
    (item, start) ::
      match body start with
      | (.ok none, next) => iterations name body items next
      | _ => []

namespace Stmt

/-- The items that the block of a loop is run for, each with the state in which the block starts. -/
def loopIterations (envOf : Scope → Env) (name : String) (collection : Expr) (body : List Stmt) (activation : Activation) :
    List (Expr × Activation) :=
  if (blockModifications body).contains name then []
  else
    match Exec.eval (fun scope => collection.evaluate (envOf scope)) activation with
    | (.ok collected, next) =>
      Exec.iterations name (execBlock envOf body) (collected.items?.getD []) { next with scope := next.scope.erase name }
    | (.error _, _) => []

mutual

/-- The states between the statements in the blocks of a statement. -/
def innerStates (envOf : Scope → Env) : Stmt → Activation → List Activation
  | .loop name collection body, activation =>
    (loopIterations envOf name collection body activation).flatMap fun iteration => blockStates envOf body iteration.2
  | .choose condition yes no, activation =>
    match Exec.eval (fun scope => condition.isTrue (envOf scope)) activation with
    | (.ok true, next) => blockStates envOf yes next
    | (.ok false, next) => blockStates envOf no next
    | (.error _, _) => []
  | _, _ => []

/-- The states that a block goes through, from the one it starts in to the one it ends in, with those of the blocks in it. -/
def blockStates (envOf : Scope → Env) : List Stmt → Activation → List Activation
  | [], activation => [activation]
  | s :: ss, activation =>
    activation :: innerStates envOf s activation ++
      match s.exec envOf activation with
      | (.ok none, next) => blockStates envOf ss next
      | (_, next) => [next]

end

end Stmt

namespace Exec

variable {α : Type} {names : List String} {name : String} {items : List Expr} {body body' : Exec (Option Expr)}
  {activation : Activation} {iteration : Expr × Activation}

/-- An iteration is the one of the first item, or one of the others if the first neither returns nor fails. -/
theorem mem_iterations_cons {item : Expr} :
    iteration ∈ iterations name body (item :: items) activation ↔
      iteration = (item, { activation with scope := activation.scope.assign name item }) ∨
        ∃ next, body { activation with scope := activation.scope.assign name item } = (.ok none, next) ∧
          iteration ∈ iterations name body items next := by
  rw [iterations, List.mem_cons]
  refine or_congr_right ?_
  generalize body { activation with scope := activation.scope.assign name item } = outcome
  obtain ⟨result, next⟩ := outcome
  cases result with
  | error error => simp
  | ok returned => cases returned <;> simp

/-- The items are taken in their order. -/
theorem iterations_prefix (items : List Expr) (activation : Activation) :
    (iterations name body items activation).map (·.1) <+: items := by
  induction items generalizing activation with
  | nil => exact List.prefix_refl _
  | cons item items ih =>
    rw [iterations, List.map_cons, List.prefix_cons_inj]
    split
    · exact ih _
    · exact List.nil_prefix

/-- The block starts with the variable bound to the item. -/
theorem local?_of_mem_iterations (h : iteration ∈ iterations name body items activation) :
    iteration.2.scope.local? name = some iteration.1 := by
  induction items generalizing activation with
  | nil => cases h
  | cons item items ih =>
    rcases mem_iterations_cons.mp h with rfl | ⟨next, _, h⟩
    · exact Scope.local?_assign.trans (if_pos rfl)
    · exact ih h

/-- At the start of each iteration, only names that the body may change, and the variable of the loop, differ. -/
theorem sameBut_of_mem_iterations (hname : name ∈ names) (hbody : Keeps names body)
    (h : iteration ∈ iterations name body items activation) : Scope.SameBut names activation.scope iteration.2.scope := by
  induction items generalizing activation with
  | nil => cases h
  | cons item items ih =>
    have hstart := Scope.SameBut.assign activation.scope hname item
    rcases mem_iterations_cons.mp h with rfl | ⟨next, hnext, h⟩
    · exact hstart
    · have hend := hbody { activation with scope := activation.scope.assign name item }
      rw [hnext] at hend
      exact (hstart.trans hend).trans (ih h)

/-- An evaluation inside of a statement changes the output only. -/
theorem eval_of_eq {run : Scope → Eval α} {scope : Scope} {output output' : Output} {result : Except Error α}
    (h : run scope output = (result, output')) : eval run { scope, output } = (result, { scope, output := output' }) := by
  rw [eval, h]

/-- Evaluating leaves the scope. -/
theorem scope_of_eval {run : Scope → Eval α} {result : Except Error α} {next : Activation}
    (h : eval run activation = (result, next)) : next.scope = activation.scope := by
  rw [← show (eval run activation).2 = next from congrArg Prod.snd h]
  rfl

end Exec

namespace Stmt

variable {envOf envOf' : Scope → Env} {names : List String} {name : String} {collection : Expr} {body : List Stmt}

/-- An iteration of a loop shows that its body does not modify the variable, and what it runs over. -/
theorem mem_loopIterations {activation : Activation} {iteration : Expr × Activation}
    (h : iteration ∈ loopIterations envOf name collection body activation) :
    name ∉ blockModifications body ∧ ∃ (items : List Expr) (next : Activation), next.scope = activation.scope ∧
      iteration ∈ Exec.iterations name (execBlock envOf body) items { next with scope := next.scope.erase name } := by
  unfold loopIterations at h
  split at h
  · cases h
  · rename_i hkept
    refine ⟨fun hname => hkept (List.contains_iff_mem.mpr hname), ?_⟩
    split at h
    · rename_i collected next hcollected
      exact ⟨_, next, Exec.scope_of_eval hcollected, h⟩
    · cases h

/-- The items that a loop reaches are the first ones of its collection. -/
theorem loopIterations_prefix {activation next : Activation} {collected : Expr}
    (h : Exec.eval (fun scope => collection.evaluate (envOf scope)) activation = (.ok collected, next)) :
    (loopIterations envOf name collection body activation).map (·.1) <+: collected.items?.getD [] := by
  unfold loopIterations
  split
  · exact List.nil_prefix
  · rw [h]
    exact Exec.iterations_prefix _ _

mutual

/-- In the blocks of a statement only the names differ that it binds, at any depth. -/
theorem sameBut_of_mem_innerStates :
    ∀ {s : Stmt} {activation state : Activation}, s.modifications ⊆ names → state ∈ innerStates envOf s activation →
      Scope.SameBut names activation.scope state.scope
  | .loop name collection body, activation, state, hs, h => by
    obtain ⟨hname, hbody⟩ := List.cons_subset.mp hs
    obtain ⟨iteration, hiteration, hstate⟩ := List.mem_flatMap.mp h
    obtain ⟨_, items, next, hnext, hiteration⟩ := mem_loopIterations hiteration
    have hkeeps : Exec.Keeps names (execBlock envOf body) :=
      keeps_execBlock (List.Subset.trans (blockTargets_subset_modifications body) hbody)
    have hstart := Exec.sameBut_of_mem_iterations hname hkeeps hiteration
    rw [← hnext]
    exact ((Scope.SameBut.erase next.scope hname).trans hstart).trans (sameBut_of_mem_blockStates hbody hstate)
  | .choose condition yes no, activation, state, hs, h => by
    obtain ⟨hyes, hno⟩ := List.append_subset.mp hs
    rw [innerStates] at h
    split at h
    · rename_i next hnext
      rw [← Exec.scope_of_eval hnext]
      exact sameBut_of_mem_blockStates hyes h
    · rename_i next hnext
      rw [← Exec.scope_of_eval hnext]
      exact sameBut_of_mem_blockStates hno h
    · cases h
  | .assign .., _, _, _, h => by cases h
  | .define .., _, _, _, h => by cases h
  | .expression _, _, _, _, h => by cases h

/-- In every state that a block passes through, only names that it may modify differ. -/
theorem sameBut_of_mem_blockStates :
    ∀ {ss : List Stmt} {activation state : Activation}, blockModifications ss ⊆ names →
      state ∈ blockStates envOf ss activation → Scope.SameBut names activation.scope state.scope
  | [], activation, state, _, h => by
    rw [List.mem_singleton.mp h]
    exact .refl names activation.scope
  | s :: ss, activation, state, hss, h => by
    obtain ⟨hs, hrest⟩ := List.append_subset.mp hss
    have hend : Scope.SameBut names activation.scope (s.exec envOf activation).2.scope :=
      keeps_exec (List.Subset.trans s.targets_subset_modifications hs) activation
    rw [blockStates, List.mem_append, List.mem_cons] at h
    rcases h with (rfl | h) | h
    · exact .refl names state.scope
    · exact sameBut_of_mem_innerStates hs h
    · split at h
      · rename_i next hnext
        rw [hnext] at hend
        exact hend.trans (sameBut_of_mem_blockStates hrest h)
      · rename_i next _ hnext
        rw [hnext] at hend
        rw [List.mem_singleton.mp h]
        exact hend

end

/-- While the block of a loop runs, the variable is bound to the item. -/
theorem local?_of_mem_loopIterations {activation state : Activation} {iteration : Expr × Activation}
    (h : iteration ∈ loopIterations envOf name collection body activation)
    (hstate : state ∈ blockStates envOf body iteration.2) :
    state.scope.local? name = some iteration.1 := by
  obtain ⟨hname, items, next, _, hiteration⟩ := mem_loopIterations h
  rw [(sameBut_of_mem_blockStates (List.Subset.refl _) hstate).locals hname]
  exact Exec.local?_of_mem_iterations hiteration

end Stmt

/-! ## Where a block looks -/

namespace Exec

variable {α : Type} {name : String} {body body' : Exec (Option Expr)} {envOf envOf' : Scope → Env} {activation : Activation}

/-- Evaluations that agree in the scope at hand agree inside of a statement. -/
theorem eval_congr {run run' : Scope → Eval α} (h : run' activation.scope = run activation.scope) :
    eval run' activation = eval run activation := by
  rw [eval, eval, h]

/-- Assignments agree if their environments agree in the scope at hand. -/
theorem assign_congr (henv : envOf' activation.scope = envOf activation.scope) (indices : List Expr) (value : Expr) :
    assign envOf' name indices value activation = assign envOf name indices value activation := by
  unfold assign
  split
  · rfl
  · exact Run.bind_eq_bind (eval_congr (by rw [henv])) fun _ _ _ => rfl

/-- Loops over items agree if their bodies agree at the start of each iteration. -/
theorem forItems_congr {items : List Expr}
    (h : ∀ iteration ∈ iterations name body items activation, body' iteration.2 = body iteration.2) :
    forItems name body' items activation = forItems name body items activation := by
  induction items generalizing activation with
  | nil => rfl
  | cons item items ih =>
    rw [forItems, forItems]
    refine Run.bind_eq_bind rfl fun _ start hstart => ?_
    obtain rfl : { activation with scope := activation.scope.assign name item } = start := (Prod.mk.inj hstart).2
    refine Run.bind_eq_bind (h _ (mem_iterations_cons.mpr (.inl rfl))) fun result next hnext => ?_
    cases result with
    | some value => rfl
    | none => exact ih fun iteration hiteration => h _ (mem_iterations_cons.mpr (.inr ⟨next, hnext, hiteration⟩))

/-- Loops agree if their bodies agree at the start of each iteration, with the variable erased before the first. -/
theorem forEach_congr {items : List Expr}
    (h : ∀ iteration ∈ iterations name body items { activation with scope := activation.scope.erase name },
      body' iteration.2 = body iteration.2) :
    forEach name items body' activation = forEach name items body activation := by
  have hitems := forItems_congr h
  refine Run.bind_eq_bind rfl fun before next hnext => Run.bind_eq_bind rfl fun _ start hstart => ?_
  obtain rfl : activation = next := (Prod.mk.inj hnext).2
  obtain rfl : { activation with scope := activation.scope.erase name } = start := (Prod.mk.inj hstart).2
  rw [Run.andFinally, Run.andFinally, hitems]

end Exec

namespace Stmt

variable {envOf envOf' : Scope → Env}

mutual

/-- A statement asks for the meaning of names in the state it starts in and in those between the statements in its blocks. -/
theorem exec_congr :
    ∀ {s : Stmt} {activation : Activation}, envOf' activation.scope = envOf activation.scope →
      (∀ state ∈ innerStates envOf s activation, envOf' state.scope = envOf state.scope) →
      s.exec envOf' activation = s.exec envOf activation
  | .assign name indices value, activation, henv, _ => by
    rw [exec, exec]
    refine Run.bind_eq_bind (Exec.eval_congr (by rw [henv])) fun value next hvalue => ?_
    rw [← Exec.scope_of_eval hvalue] at henv
    exact Run.bind_eq_bind (Exec.assign_congr henv indices value) fun _ _ _ => rfl
  | .define .., _, _, _ => rfl
  | .loop name collection body, activation, henv, hinner => by
    rw [exec, exec]
    split
    · rfl
    · rename_i hkept
      refine Run.bind_eq_bind (Exec.eval_congr (by rw [henv])) fun collected next hcollected => ?_
      cases hitems : collected.items? with
      | none => rfl
      | some items =>
        refine Exec.forEach_congr fun iteration hiteration => execBlock_congr fun state hstate => hinner state ?_
        refine List.mem_flatMap.mpr ⟨iteration, ?_, hstate⟩
        rw [loopIterations, if_neg hkept, hcollected]
        dsimp only
        rw [hitems]
        exact hiteration
  | .choose condition yes no, activation, henv, hinner => by
    rw [exec, exec]
    refine Run.bind_eq_bind (Exec.eval_congr (by rw [henv])) fun truth next htruth => ?_
    rw [innerStates, htruth] at hinner
    cases truth with
    | true => exact execBlock_congr hinner
    | false => exact execBlock_congr hinner
  | .expression e, activation, henv, _ => by
    cases e with
    | returned mark value =>
      rw [exec, exec]
      exact Run.bind_eq_bind (Exec.eval_congr (by rw [henv])) fun _ _ _ => rfl
    | call mark name args =>
      rw [exec, exec]
      refine Run.bind_eq_bind (Exec.eval_congr (by rw [henv])) fun values next hvalues => ?_
      rw [← Exec.scope_of_eval hvalues] at henv
      exact Run.bind_eq_bind (Exec.eval_congr (by rw [henv])) fun _ _ _ => rfl
    | _ => rfl

/-- A block asks for the meaning of names in the states it goes through and nowhere else. -/
theorem execBlock_congr :
    ∀ {ss : List Stmt} {activation : Activation},
      (∀ state ∈ blockStates envOf ss activation, envOf' state.scope = envOf state.scope) →
      execBlock envOf' ss activation = execBlock envOf ss activation
  | [], _, _ => rfl
  | s :: ss, activation, h => by
    rw [blockStates, List.forall_mem_append, List.forall_mem_cons] at h
    obtain ⟨⟨henv, hinner⟩, hrest⟩ := h
    rw [execBlock, execBlock]
    refine Run.bind_eq_bind (exec_congr henv hinner) fun result next hnext => ?_
    cases result with
    | some value => rfl
    | none =>
      rw [hnext] at hrest
      exact execBlock_congr hrest

end

/-- The last of the states is the one that the block ends in. -/
theorem getLast?_blockStates (envOf : Scope → Env) (ss : List Stmt) (activation : Activation) :
    (blockStates envOf ss activation).getLast? = some (execBlock envOf ss activation).2 := by
  induction ss generalizing activation with
  | nil => rfl
  | cons s ss ih =>
    have hexec : execBlock envOf (s :: ss) activation =
        Run.bind (s.exec envOf) (fun result => result.elim (execBlock envOf ss) fun value => pure (some value))
          activation := by
      rw [execBlock]
      refine Run.bind_eq_bind rfl fun result _ _ => ?_
      cases result <;> rfl
    rw [blockStates, hexec, Run.bind, List.getLast?_append]
    generalize s.exec envOf activation = outcome
    obtain ⟨result, next⟩ := outcome
    cases result with
    | error error => rfl
    | ok returned =>
      cases returned with
      | some value => rfl
      | none =>
        dsimp only [Option.elim]
        rw [ih]
        rfl

/-- Blocks change only what they assign, whether they end, return or fail. The variable of a loop is afterwards bound as the
loop found it, and in all states that its block goes through it is bound to the item that the block is run for; the states
are those in which the block asks for the meaning of names, up to the one it ends in. -/
theorem blocks_change_only_targets (envOf : Scope → Env) :
    (∀ ss activation, Scope.SameBut (blockTargets ss) activation.scope (execBlock envOf ss activation).2.scope) ∧
      (∀ name collection body activation,
        ((loop name collection body).exec envOf activation).2.scope.local? name = activation.scope.local? name) ∧
      (∀ name collection body activation,
        (∀ iteration ∈ loopIterations envOf name collection body activation,
          ∀ state ∈ blockStates envOf body iteration.2, state.scope.local? name = some iteration.1) ∧
        ∀ collected output, collection.evaluate (envOf activation.scope) activation.output = (.ok collected, output) →
          (loopIterations envOf name collection body activation).map (·.1) <+: collected.items?.getD []) ∧
      ∀ ss activation,
        (blockStates envOf ss activation).getLast? = some (execBlock envOf ss activation).2 ∧
        ∀ envOf', (∀ state ∈ blockStates envOf ss activation, envOf' state.scope = envOf state.scope) →
          execBlock envOf' ss activation = execBlock envOf ss activation := by
  refine ⟨fun ss => keeps_execBlock (List.Subset.refl _), local?_loop, fun name collection body activation => ⟨?_, ?_⟩,
    fun ss activation => ⟨getLast?_blockStates envOf ss activation, fun envOf' => execBlock_congr⟩⟩
  · exact fun iteration hiteration state hstate => local?_of_mem_loopIterations hiteration hstate
  · exact fun collected output hcollected => loopIterations_prefix (Exec.eval_of_eq hcollected)

/-- A loop that returns if a variable has a value. -/
def searchRow : List Stmt :=
  [.loop "y" (.array {} [.integer {} 3, .integer {} 4])
    [.assign "last" [] (.var {} "y"),
      .choose (.comparison {} .equal (.var {} "x") (.integer {} 2)) [.expression (.returned {} (.var {} "y"))] []]]

/-- The values for the variable. -/
def searchRows : Expr :=
  .array {} [.integer {} 1, .integer {} 2, .integer {} 5]

/-- A state in which the variable is bound already. -/
def searchStart : Activation :=
  { scope := Scope.global.assign "x" (.text {} "outer"), output := {} }

/-- A loop that searches rows until it returns changes only what its assignments name. -/
theorem blocks_change_only_targets_searchRow :
    let found := execBlock (Scope.envUnder {}) [.loop "x" searchRows searchRow] searchStart
    (found.1.toOption.join.map Expr.render = some "3" ∧ (found.2.scope.local? "last").map Expr.render = some "3") ∧
      found.2.scope.local? "x" = some (.text {} "outer") ∧ found.2.scope.local? "y" = none ∧
      ((loopIterations (Scope.envUnder {}) "x" searchRows searchRow searchStart).map (·.1.render) = ["1", "2"] ∧
        ∀ iteration ∈ loopIterations (Scope.envUnder {}) "x" searchRows searchRow searchStart,
          ∀ state ∈ blockStates (Scope.envUnder {}) searchRow iteration.2, state.scope.local? "x" = some iteration.1) ∧
      execBlock (fun scope => Scope.envUnder {} (if (scope.local? "x").isSome then scope else Scope.global))
        [.loop "x" searchRows searchRow] searchStart = found := by
  obtain ⟨hkept, _, hiterations, hstates⟩ := blocks_change_only_targets (Scope.envUnder {})
  have hbound : ∀ state ∈ blockStates (Scope.envUnder {}) [.loop "x" searchRows searchRow] searchStart,
      (state.scope.local? "x").isSome = true :=
    List.all_eq_true.mp (by decide +kernel)
  refine ⟨by decide +kernel, (hkept _ searchStart).locals (by decide), (hkept _ searchStart).locals (by decide),
    ⟨by decide +kernel, (hiterations _ _ _ _).1⟩, (hstates _ _).2 _ fun state hstate => ?_⟩
  rw [hbound state hstate]
  rfl

end Stmt

end TriggerScript
