import TriggerScript.Proofs.Eval.Scopes

/-!
# How deep evaluation nests

Evaluation nests where a tree does not say how far: in the expression bound to a name, in the body of a function, in a
function applied to an item, and in the function that a variable stands for. Here this nesting is written down without a
bound of its own, as environments over environments. The only limit in it is the one that the settings put on open calls.
Environments agree with it after a number of levels that depends on the names that can be bound and on this limit: no name
is worked out inside itself, a call leaves the names of its caller behind, and a variable stands for a function or for
nothing that can be called.
-/

namespace TriggerScript

namespace Scope

/-- The environment of a scope, over the environments of all that is nested in it. -/
def envOver (settings : Settings) (nested : Scope → Env) (scope : Scope) : Env where
  resolve := scope.resolveWith fun inner e => e.replace (nested inner)
  call name values span :=
    match scope.function? name with
    | some function =>
      if settings.maxCallDepth ≤ scope.depth then Run.fail (.evaluation (.depthExceeded function.name) span)
      else function.run nested scope values span
    | none =>
      match Builtin.ofName? name with
      | some builtin =>
        builtin.apply settings.defaultBadge
          (fun predicate item => (nested (scope.child (.iteration predicate))).call predicate [item] span)
          { function := builtin.name, values, span }
      | none =>
        match scope.find? name with
        | some (.functionRef _ target) =>
          if target = name then Run.fail (.evaluation (.unknownFunction name) span)
          else (nested scope).call target values span
        | _ => Run.fail (.evaluation (.unknownFunction name) span)

/-- Environments nested a number of levels deep, over environments for all that is nested deeper. -/
def envNested (settings : Settings) (beyond : Scope → Env) : Nat → Scope → Env
  | 0 => beyond
  | levels + 1 => envOver settings (envNested settings beyond levels)

/-! ## Names that can still be worked out -/

/-- How many of some names are not being worked out. -/
def freeAmong (names : List String) (scope : Scope) : Nat :=
  names.countP fun name => !scope.isResolving name

/-- Of some names, no more are free than there are. -/
theorem freeAmong_le (names : List String) (scope : Scope) : scope.freeAmong names ≤ names.length :=
  List.countP_le_length

/-- In a scope inside for working out a name, this name is worked out besides those outside. -/
theorem isResolving_child_resolving (scope : Scope) (name other : String) :
    (scope.child (.resolving name)).isResolving other = (decide (name = other) || scope.isResolving other) := by
  simp [isResolving, frames, child]

/-- Working out a name leaves fewer names to work out inside it. -/
theorem freeAmong_child_resolving {names : List String} {scope : Scope} {name : String} (hname : name ∈ names)
    (hresolving : scope.isResolving name = false) :
    (scope.child (.resolving name)).freeAmong names < scope.freeAmong names := by
  unfold freeAmong
  have hmono : ∀ names : List String, names.countP (fun other => !(scope.child (.resolving name)).isResolving other) ≤
      names.countP fun other => !scope.isResolving other := by
    intro names
    refine List.countP_mono_left fun other _ hfree => ?_
    simp only [isResolving_child_resolving, Bool.not_or, Bool.and_eq_true] at hfree
    exact hfree.2
  have hself : (!(scope.child (.resolving name)).isResolving name) = false := by simp [isResolving_child_resolving]
  obtain ⟨before, after, rfl⟩ := List.append_of_mem hname
  have hbefore := hmono before
  have hafter := hmono after
  simp only [List.countP_append, List.countP_cons, hself, hresolving, Bool.not_false, Bool.false_eq_true, if_true, if_false]
  omega

/-! ## Bounds that are never reached -/

section Bounds

variable {scope : Scope} {caller : Caller} {name : String} {span : Span}

/-- Working out bound expressions matters only for a name that is bound and not being worked out. -/
theorem resolveWith_congr {workOut workOut' : Scope → Expr → Eval Expr}
    (h : ∀ e, scope.find? name = some e → scope.isResolving name = false →
      workOut (scope.child (.resolving name)) e = workOut' (scope.child (.resolving name)) e) :
    scope.resolveWith workOut name span = scope.resolveWith workOut' name span := by
  unfold resolveWith
  cases hfind : scope.find? name with
  | none => rfl
  | some value =>
    dsimp only
    split
    · rfl
    · split
      · rfl
      · rename_i hresolving
        exact h value hfind (Bool.eq_false_iff.mpr hresolving)

/-- The names bound along the chain. -/
def names (scope : Scope) : List String :=
  (scope.frames.flatMap (·.locals.entries)).map (·.1)

/-- A name that is found is one of the names of the scope. -/
theorem mem_names_of_find? {value : Expr} (h : scope.find? name = some value) : name ∈ scope.names := by
  obtain ⟨frame, hframe, hlocal⟩ := exists_of_find? h
  have hentry : (name, value) ∈ scope.frames.flatMap (·.locals.entries) :=
    List.mem_flatMap.mpr ⟨frame, hframe, Bindings.mem_of_find? hlocal⟩
  exact List.mem_map_of_mem hentry

theorem names_child (context : Context) (scope : Scope) : (scope.child context).names = scope.names :=
  rfl

/-- No more names are free than the scope has bindings. -/
theorem freeAmong_names_le_size (scope : Scope) : scope.freeAmong scope.names ≤ scope.size := by
  have h := freeAmong_le scope.names scope
  rwa [names, List.length_map] at h

/-- Bounds that leave room for every name that can still be worked out make no difference: a name that is worked out was free
before and is not free inside, so each step inwards needs one less. -/
theorem envWithin_congr {bound bound' : Nat} (h : scope.freeAmong scope.names ≤ bound)
    (h' : scope.freeAmong scope.names ≤ bound') : scope.envWithin caller bound = scope.envWithin caller bound' := by
  have hless : ∀ {scope : Scope} {name : String} {e : Expr}, scope.find? name = some e → scope.isResolving name = false →
      (scope.child (.resolving name)).freeAmong scope.names < scope.freeAmong scope.names :=
    fun hfind hresolving => freeAmong_child_resolving (mem_names_of_find? hfind) hresolving
  induction bound generalizing bound' scope with
  | zero =>
    cases bound' with
    | zero => rfl
    | succ bound' =>
      simp only [envWithin, Env.mk.injEq, and_true]
      funext name span
      refine resolveWith_congr fun e hfind hresolving => ?_
      have := hless hfind hresolving
      omega
  | succ bound ih =>
    cases bound' with
    | zero =>
      simp only [envWithin, Env.mk.injEq, and_true]
      funext name span
      refine resolveWith_congr fun e hfind hresolving => ?_
      have := hless hfind hresolving
      omega
    | succ bound' =>
      simp only [envWithin, Env.mk.injEq, and_true]
      funext name span
      refine resolveWith_congr fun e hfind hresolving => ?_
      have hinner := hless hfind hresolving
      have henv : (scope.child (.resolving name)).envWithin caller bound =
          (scope.child (.resolving name)).envWithin caller bound' :=
        ih (by rw [names_child]; omega) (by rw [names_child]; omega)
      rw [henv]

/-- A name is worked out in the environment of the scope inside. -/
theorem env_resolve :
    (scope.env caller).resolve name span = scope.resolveWith (fun inner e => e.replace (inner.env caller)) name span := by
  have hsize := freeAmong_names_le_size scope
  unfold env
  cases h : scope.size with
  | zero =>
    simp only [envWithin]
    refine resolveWith_congr fun e hfind hresolving => ?_
    have := freeAmong_child_resolving (mem_names_of_find? hfind) hresolving
    omega
  | succ size =>
    simp only [envWithin]
    refine resolveWith_congr fun e hfind hresolving => ?_
    have hinner := freeAmong_child_resolving (mem_names_of_find? hfind) hresolving
    rw [envWithin_congr (by rw [names_child]; omega) (freeAmong_names_le_size _)]

theorem env_call : (scope.env caller).call = scope.invoke caller := by
  unfold env
  cases scope.size <;> rfl

end Bounds

end Scope

/-- A built-in function with one argument applies no function. -/
theorem Builtin.apply_congr {badge : String} {builtin : Builtin} {args : Arguments} (h : args.values[1]? = none)
    (apply apply' : String → Expr → Eval (Option Expr)) :
    builtin.apply badge apply args = builtin.apply badge apply' args := by
  have hpredicate : Joiner.predicate? args = .ok none := by rw [Joiner.predicate?, h]
  cases builtin with
  | join joiner =>
    have hjoin : joiner.join args apply = joiner.join args apply' := by
      unfold Joiner.join
      rw [hpredicate]
      rfl
    rw [Builtin.apply, Builtin.apply, hjoin]
  | _ => rfl

namespace Scope

/-! ## What a name calls -/

section Callees

variable {scope : Scope} {name : String}

/-- A name of a function of the script calls this function. -/
theorem calleeWithin_of_function? {function : Function} (bound : Nat) (h : scope.function? name = some function) :
    scope.calleeWithin (bound + 1) name = .function function := by
  rw [calleeWithin, h]

/-- A name of a built-in function calls this one unless the script defines one of the name. -/
theorem calleeWithin_of_ofName? {builtin : Builtin} (bound : Nat) (hfunction : scope.function? name = none)
    (h : Builtin.ofName? name = some builtin) : scope.calleeWithin (bound + 1) name = .builtin builtin := by
  rw [calleeWithin, hfunction, h]

/-- A name that is neither that of a function nor bound to a reference calls nothing. -/
theorem callee_of_no_reference (hfunction : scope.function? name = none) (hbuiltin : Builtin.ofName? name = none)
    (hfind : ∀ mark target, scope.find? name ≠ some (.functionRef mark target)) : scope.callee name = .unknown name := by
  rw [callee, calleeWithin, hfunction, hbuiltin]
  dsimp only
  split
  · rename_i mark target hreference
    exact absurd hreference (hfind mark target)
  · rfl

/-- A variable that stands for a defined function calls what the name of the function calls. -/
theorem callee_of_reference {mark : Mark} {target : String} (hfunction : scope.function? name = none)
    (hbuiltin : Builtin.ofName? name = none) (hfind : scope.find? name = some (.functionRef mark target))
    (hne : target ≠ name) (hdefined : (scope.function? target).isSome = true ∨ Builtin.isName target = true) :
    scope.callee name = scope.callee target := by
  have hsize : scope.size ≠ 0 := by
    have hpos := List.length_pos_of_mem (mem_names_of_find? hfind)
    rw [names, List.length_map] at hpos
    exact Nat.ne_of_gt hpos
  obtain ⟨size, hsize⟩ := Nat.exists_eq_succ_of_ne_zero hsize
  have hname : scope.callee name = scope.calleeWithin (size + 1) target := by
    rw [callee, calleeWithin, hfunction, hbuiltin, hfind, hsize]
    exact if_neg hne
  rw [hname, callee]
  cases htarget : scope.function? target with
  | some function => rw [calleeWithin_of_function? _ htarget, calleeWithin_of_function? _ htarget]
  | none =>
    rw [htarget, Builtin.isName] at hdefined
    obtain ⟨builtin, hbuiltin⟩ := Option.isSome_iff_exists.mp (hdefined.resolve_left Bool.false_ne_true)
    rw [calleeWithin_of_ofName? _ htarget hbuiltin, calleeWithin_of_ofName? _ htarget hbuiltin]

end Callees

theorem envUnder_call (settings : Settings) (scope : Scope) :
    (scope.envUnder settings).call = scope.invoke (settings.caller scope) :=
  env_call

/-- A function is applied to an item as it is called with one argument. -/
theorem invokeOn_eq (settings : Settings) (scope : Scope) (context : Context) (predicate : String) (item : Expr)
    (span : Span) : invokeOn (settings.caller scope) span (scope.child context) predicate item =
      ((scope.child context).envUnder settings).call predicate [item] span := by
  rw [envUnder_call, invoke, invokeOn, invokeWith, invokeWith]
  split
  · rfl
  · exact Builtin.apply_congr rfl _ _
  · rfl

end Scope

/-! ## Levels -/

namespace Discipline

variable {d : Discipline} {settings : Settings} {depth : Nat} {scope : Scope} {nested : Scope → Env}
  {values : List Expr} {span : Span}

/-- In the bodies of functions that may be called at a depth, environments agree with those under the settings. -/
abbrev BodiesAgree (d : Discipline) (settings : Settings) (depth : Nat) (nested : Scope → Env) : Prop :=
  depth < settings.maxCallDepth → ∀ inner, d.Admits (depth + 1) inner → d.EnvAgree (nested inner) (inner.envUnder settings)

/-- A function is called alike, or refused alike where too many calls are open, if bodies run alike. -/
theorem agree_callFunction (hd : d.Lawful) (hbodies : d.BodiesAgree settings depth nested) (hscope : d.Admits depth scope)
    {function : Function} (hfunction : d.Callable function) (hvalues : ∀ value ∈ values, d.Made value) :
    d.Agree d.MadeOption
      (if settings.maxCallDepth ≤ scope.depth then Run.fail (.evaluation (.depthExceeded function.name) span)
        else function.run nested scope values span)
      ((settings.caller scope).call scope function values span) := by
  unfold Settings.caller
  dsimp only
  rw [hscope.depth_eq]
  by_cases hlimit : settings.maxCallDepth ≤ depth
  · rw [if_pos hlimit, Nat.sub_eq_zero_of_le hlimit]
    exact Run.agree_fail _
  · obtain ⟨left, hleft⟩ : ∃ left, settings.maxCallDepth - depth = left + 1 := ⟨settings.maxCallDepth - depth - 1, by omega⟩
    rw [if_neg hlimit, hleft]
    refine agree_run hd (fun inner hinner => ?_) hscope hfunction hvalues
    have henv : inner.envUnder settings =
        inner.env { badge := settings.defaultBadge, call := Function.callWithin settings.defaultBadge left } := by
      have hdepth : settings.maxCallDepth - (depth + 1) = left := by omega
      rw [Scope.envUnder, Settings.caller, hinner.depth_eq, hdepth]
    rw [← henv]
    exact hbodies (by omega) inner hinner

/-- A call of a defined name agrees if the bodies of functions do, and the functions that built-in ones apply. -/
theorem agree_callDefined (hd : d.Lawful) (hbodies : d.BodiesAgree settings depth nested) (hscope : d.Admits depth scope)
    {target : String} (htarget : d.Defined target) (hvalues : ∀ value ∈ values, d.Made value)
    (hbuiltin : ∀ builtin : Builtin,
      d.Agree d.MadeOption
        (builtin.apply settings.defaultBadge
          (fun predicate item => (nested (scope.child (.iteration predicate))).call predicate [item] span)
          { function := builtin.name, values, span })
        (builtin.apply settings.defaultBadge
          (fun predicate item => ((scope.child (.iteration predicate)).envUnder settings).call predicate [item] span)
          { function := builtin.name, values, span })) :
    d.Agree d.MadeOption ((scope.envOver settings nested).call target values span)
      ((scope.envUnder settings).call target values span) := by
  rw [Scope.envUnder_call, Scope.invoke, Scope.invokeWith]
  unfold Scope.envOver
  dsimp only
  cases hfunction : scope.function? target with
  | some function =>
    rw [Scope.callee, Scope.calleeWithin_of_function? _ hfunction]
    rw [hscope.function?] at hfunction
    exact agree_callFunction hd hbodies hscope (hd.callable hfunction) hvalues
  | none =>
    rw [Defined, ← hscope.function?, hfunction] at htarget
    obtain ⟨builtin, hname⟩ := Option.isSome_iff_exists.mp (htarget.resolve_left Bool.false_ne_true)
    rw [Scope.callee, Scope.calleeWithin_of_ofName? _ hfunction hname, hname]
    simp only [Scope.invokeOn_eq]
    exact hbuiltin builtin

/-- A call of a defined name with one argument agrees one level above the bodies of functions. -/
theorem agree_callItem (hd : d.Lawful) (hbodies : d.BodiesAgree settings depth nested) (hscope : d.Admits depth scope)
    {target : String} (htarget : d.Defined target) {item : Expr} (hitem : d.Made item) :
    d.Agree d.MadeOption ((scope.envOver settings nested).call target [item] span)
      ((scope.envUnder settings).call target [item] span) := by
  have hvalues : ∀ value ∈ [item], d.Made value := List.forall_mem_singleton.mpr hitem
  refine agree_callDefined hd hbodies hscope htarget hvalues fun builtin => ?_
  rw [Builtin.apply_congr rfl _ fun _ _ => pure none,
    Builtin.apply_congr rfl (fun predicate item => ((scope.child (.iteration predicate)).envUnder settings).call _ _ _)
      fun _ _ => pure none]
  exact agree_apply hd hvalues fun _ _ _ _ _ => Run.agree_pure madeOption_none

/-- References only name what is defined, and names are among some. -/
structure Closed (d : Discipline) (names : List String) : Prop where
  defined : ∀ {mark : Mark} {target : String}, d.held (.functionRef mark target) → d.Defined target
  names : ∀ {name : String}, d.name name → name ∈ names

variable {names : List String}

/-- A call of a defined name with any arguments agrees two levels above the bodies of functions. -/
theorem agree_callValues (hd : d.Lawful) (hclosed : d.Closed names) (hbodies : d.BodiesAgree settings depth nested)
    (hbodies' : d.BodiesAgree settings depth (Scope.envOver settings nested)) (hscope : d.Admits depth scope)
    {target : String} (htarget : d.Defined target) (hvalues : ∀ value ∈ values, d.Made value) :
    d.Agree d.MadeOption ((scope.envOver settings (Scope.envOver settings nested)).call target values span)
      ((scope.envUnder settings).call target values span) := by
  refine agree_callDefined hd hbodies' hscope htarget hvalues fun builtin => ?_
  refine agree_apply hd hvalues fun mark predicate item hmem hitem => ?_
  have hpredicate : d.Defined predicate := hclosed.defined (hd.held_of_made (hvalues _ hmem).root)
  exact agree_callItem hd hbodies (hscope.child _) hpredicate hitem

/-- A call of a name that is not defined agrees if calls of defined ones do: the name stands for one, or calls nothing. -/
theorem agree_callReference (hclosed : d.Closed names) (hscope : d.Admits depth scope) {name : String}
    (hname : ¬ d.Defined name)
    (hdefined : ∀ target, d.Defined target →
      d.Agree d.MadeOption ((nested scope).call target values span) ((scope.envUnder settings).call target values span)) :
    d.Agree d.MadeOption ((scope.envOver settings nested).call name values span)
      ((scope.envUnder settings).call name values span) := by
  obtain ⟨hfunction, hbuiltin⟩ : scope.function? name = none ∧ Builtin.ofName? name = none := by
    rw [hscope.function?]
    simpa [Defined, Builtin.isName] using hname
  simp only [Scope.envOver, hfunction, hbuiltin]
  split
  · rename_i mark target hfind
    split
    · rename_i heq
      have hcallee : scope.callee name = .unknown name := by
        rw [Scope.callee, Scope.calleeWithin, hfunction, hbuiltin, hfind]
        exact if_pos heq
      rw [Scope.envUnder_call, Scope.invoke, Scope.invokeWith, hcallee]
      exact Run.agree_fail _
    · rename_i hne
      have htarget : d.Defined target := hclosed.defined (hscope.held hfind).root
      have hcallee : scope.callee name = scope.callee target := by
        refine Scope.callee_of_reference hfunction hbuiltin hfind hne ?_
        rw [hscope.function?]
        exact htarget
      have hcall : (scope.envUnder settings).call name values span = (scope.envUnder settings).call target values span := by
        rw [Scope.envUnder_call, Scope.invoke, Scope.invoke, Scope.invokeWith, Scope.invokeWith, hcallee]
      rw [hcall]
      exact hdefined target htarget
  · rename_i hfind
    rw [Scope.envUnder_call, Scope.invoke, Scope.invokeWith, Scope.callee_of_no_reference hfunction hbuiltin hfind]
    exact Run.agree_fail _

/-- Every call agrees three levels above the bodies of functions. -/
theorem agree_callAny (hd : d.Lawful) (hclosed : d.Closed names) (hbodies : d.BodiesAgree settings depth nested)
    (hbodies' : d.BodiesAgree settings depth (Scope.envOver settings nested))
    (hbodies'' : d.BodiesAgree settings depth (Scope.envOver settings (Scope.envOver settings nested)))
    (hscope : d.Admits depth scope) {name : String} (hvalues : ∀ value ∈ values, d.Made value) :
    d.Agree d.MadeOption
      ((scope.envOver settings (Scope.envOver settings (Scope.envOver settings nested))).call name values span)
      ((scope.envUnder settings).call name values span) := by
  by_cases hname : d.Defined name
  · exact agree_callValues hd hclosed hbodies' hbodies'' hscope hname hvalues
  · refine agree_callReference hclosed hscope hname fun target htarget => ?_
    exact agree_callValues hd hclosed hbodies hbodies' hscope htarget hvalues

/-- How many levels the evaluation in a scope may nest: its names inside one another, and for each call that may be open all
names again; three levels stand for a variable that stands for a built-in function that applies a function. -/
def levels (names : List String) (settings : Settings) (scope : Scope) : Nat :=
  scope.freeAmong names + 3 + (settings.maxCallDepth - scope.depth) * (names.length + 3)

/-- Environments that are nested deep enough agree with those under the settings, whatever is nested deeper. -/
theorem agree_envNested (hd : d.Lawful) (hclosed : d.Closed names) (beyond : Scope → Env) {bound : Nat}
    (hscope : d.Admits depth scope) (hbound : levels names settings scope ≤ bound) :
    d.EnvAgree (scope.envNested settings beyond bound) (scope.envUnder settings) := by
  induction bound using Nat.strongRecOn generalizing depth scope with
  | ind bound ih =>
    unfold levels at hbound ih
    rw [hscope.depth_eq] at hbound
    obtain ⟨rest, rfl⟩ : ∃ rest, bound = rest + 3 := ⟨bound - 3, by omega⟩
    have hbodies : ∀ bound, rest ≤ bound → bound < rest + 3 →
        d.BodiesAgree settings depth (fun inner => inner.envNested settings beyond bound) := by
      intro bound hrest hlt hdepth inner hinner
      refine ih bound hlt hinner ?_
      obtain ⟨left, hleft⟩ : ∃ left, settings.maxCallDepth - depth = left + 1 :=
        ⟨settings.maxCallDepth - depth - 1, by omega⟩
      have hinnerLeft : settings.maxCallDepth - (depth + 1) = left := by omega
      have hfree := inner.freeAmong_le names
      rw [hleft, Nat.succ_mul] at hbound
      rw [hinner.depth_eq, hinnerLeft]
      omega
    refine ⟨fun name span => ?_, fun name values span hvalues => ?_⟩
    · change d.Agree d.Made (scope.resolveWith _ name span) ((scope.env (settings.caller scope)).resolve name span)
      rw [Scope.env_resolve]
      refine agree_resolveWith hd hscope fun e hfind hresolving he => ?_
      refine agree_replace hd (ih (rest + 2) (by omega) (hscope.child _) ?_) he
      obtain ⟨frame, hframe, hlocal⟩ := Scope.exists_of_find? hfind
      have hname : name ∈ names := hclosed.names (hscope.locals frame hframe name e hlocal).1
      have hfree := Scope.freeAmong_child_resolving hname hresolving
      rw [(hscope.child _).depth_eq]
      omega
    · exact agree_callAny hd hclosed (hbodies rest (by omega) (by omega)) (hbodies (rest + 1) (by omega) (by omega))
        (hbodies (rest + 2) (by omega) (by omega)) hscope hvalues

end Discipline

end TriggerScript
