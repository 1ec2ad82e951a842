import Mathlib.Logic.Relation
import TriggerScript.Proofs.Eval.Defaults
import TriggerScript.Proofs.Eval.Resolution

/-!
# Defaults that mention one another

The default of a parameter may mention other parameters, declared before it or after it. Defaults are worked out on demand,
so that a default is worked out inside another one that mentions it, and those that are done are bound to their values. If
the mentions go round in a circle, no order helps and the call fails; if they do not, no default is met inside itself.
-/

namespace TriggerScript

namespace Expr

/-- A name stands somewhere in a tree as a variable. -/
def Mentions (name : String) (e : Expr) : Prop :=
  ∃ mark, .var mark name ∈ e.nodes

/-- There is no call in a tree. -/
def IsCallFree (e : Expr) : Prop :=
  ∀ mark name args, .call mark name args ∉ e.nodes

/-- A variable is mentioned as a whole tree or in a part of one. -/
theorem mentions_iff {name : String} {e : Expr} :
    e.Mentions name ↔ (∃ mark, e = .var mark name) ∨ ∃ part ∈ e.children, part.Mentions name := by
  unfold Mentions
  rw [nodes_eq]
  constructor
  · rintro ⟨mark, hmem⟩
    rcases List.mem_cons.mp hmem with heq | hmem
    · exact .inl ⟨mark, heq.symm⟩
    · obtain ⟨part, hpart, hmem⟩ := List.mem_flatMap.mp hmem
      exact .inr ⟨part, hpart, mark, hmem⟩
  · rintro (⟨mark, rfl⟩ | ⟨part, hpart, mark, hmem⟩)
    · exact ⟨mark, List.mem_cons_self⟩
    · exact ⟨mark, List.mem_cons_of_mem _ (List.mem_flatMap.mpr ⟨part, hpart, hmem⟩)⟩

/-- Where nothing is left to work out, nothing is mentioned. -/
theorem not_mentions_of_isPending {e : Expr} (h : ∀ node ∈ e.nodes, node.isPending = false) (name : String) :
    ¬ e.Mentions name := by
  rintro ⟨mark, hmem⟩
  cases h _ hmem

/-- A value that is worked out mentions no variable. -/
theorem not_mentions_of_isReduced {e : Expr} (h : e.isReduced = true) (name : String) : ¬ e.Mentions name :=
  not_mentions_of_isPending (fun node hnode => (isReduced_iff.mp h node hnode).1) name

end Expr

/-! ## Runs that fail -/

namespace Run

variable {σ α β : Type} {run : Run σ α} {next : α → Run σ β}

/-- A run that fails from every state. -/
def Fails (run : Run σ α) : Prop :=
  ∀ s, ∃ error s', run s = (.error error, s')

theorem fails_fail (error : Error) : Fails (Run.fail error : Run σ α) :=
  fun s => ⟨error, s, rfl⟩

/-- A sequence fails if its first run does. -/
theorem Fails.bind (h : Fails run) : Fails (run >>= next) := by
  intro s
  obtain ⟨error, s', heq⟩ := h s
  refine ⟨error, s', ?_⟩
  change Run.bind run next s = _
  rw [Run.bind, heq]

/-- A run fails if it would go on with one that does. -/
theorem fails_bind (h : ∀ a, (∃ s t, run s = (.ok a, t)) → Fails (next a)) : Fails (run >>= next) := by
  intro s
  change ∃ error s', Run.bind run next s = (.error error, s')
  unfold Run.bind
  generalize hrun : run s = outcome
  obtain ⟨result, s'⟩ := outcome
  cases result with
  | ok a => exact h a ⟨s, s', hrun⟩ s'
  | error error => exact ⟨error, s', rfl⟩

end Run

namespace Expr

variable {env : Env} {name : String}

/-- A run that fails does so also where a value is required first. -/
theorem fails_ifValue {e : Expr} {run : Eval Expr} (h : run.Fails) : (e.ifValue run).Fails := by
  unfold ifValue
  split
  · exact h
  · exact Run.fails_fail _

/-- Evaluating trees fails if replacing in one of them does. -/
theorem fails_evaluateAll {es : List Expr} {e : Expr} (hmem : e ∈ es) (h : (e.replace env).Fails) :
    (evaluateAll env es).Fails := by
  induction es with
  | nil => cases hmem
  | cons first es ih =>
    rw [evaluateAll]
    rcases List.mem_cons.mp hmem with rfl | hmem
    · exact (fails_ifValue h).bind
    · exact Run.fails_bind fun _ _ => (ih hmem).bind

/-- Replacing in trees fails if it does in one of them. -/
theorem fails_replaceAll {es : List Expr} {e : Expr} (hmem : e ∈ es) (h : (e.replace env).Fails) :
    (replaceAll env es).Fails := by
  induction es with
  | nil => cases hmem
  | cons first es ih =>
    rw [replaceAll]
    rcases List.mem_cons.mp hmem with rfl | hmem
    · exact h.bind
    · exact Run.fails_bind fun _ _ => (ih hmem).bind

/-- Evaluating entries fails if replacing in a key or a value of one of them does. -/
theorem fails_evaluateEntries {entries : List (Expr × Expr)} {entry : Expr × Expr} (hmem : entry ∈ entries)
    (h : (entry.1.replace env).Fails ∨ (entry.2.replace env).Fails) (done : List (Expr × Expr)) :
    (evaluateEntries env done entries).Fails := by
  induction entries generalizing done with
  | nil => cases hmem
  | cons first entries ih =>
    rw [evaluateEntries]
    rcases List.mem_cons.mp hmem with rfl | hmem
    · rcases h with h | h
      · exact (fails_ifValue h).bind
      · refine Run.fails_bind fun key _ => ?_
        split
        · exact Run.fails_fail _
        · exact (fails_ifValue h).bind
    · refine Run.fails_bind fun key _ => ?_
      split
      · exact Run.fails_fail _
      · exact Run.fails_bind fun _ _ => ih hmem _

/-- An expression has no value if it mentions a name that has none: no part of it is left out. -/
theorem fails_replace (hname : ∀ span, (env.resolve name span).Fails) {e : Expr} (h : e.Mentions name) :
    (e.replace env).Fails := by
  induction e using children_induction with
  | h e ih =>
    rcases mentions_iff.mp h with ⟨mark, rfl⟩ | ⟨part, hpart, hmention⟩
    · exact hname mark.span
    · have hfails := ih part hpart hmention
      cases e with
      | indexed mark base index =>
        rw [replace]
        rcases (by simpa [children] using hpart : part = base ∨ part = index) with rfl | rfl
        · exact hfails.bind
        · exact Run.fails_bind fun _ _ => (fails_ifValue hfails).bind
      | array mark entries =>
        rw [replace]
        exact (fails_evaluateAll hpart hfails).bind
      | dictionary mark entries =>
        rw [replace]
        obtain ⟨entry, hentry, hmem⟩ := List.mem_flatMap.mp hpart
        refine (fails_evaluateEntries hentry ?_ []).bind
        rcases (by simpa using hmem : part = entry.1 ∨ part = entry.2) with rfl | rfl
        · exact .inl hfails
        · exact .inr hfails
      | arithmetic mark op left right | comparison mark op left right =>
        rw [replace]
        rcases (by simpa [children] using hpart : part = left ∨ part = right) with rfl | rfl
        · exact hfails.bind
        · exact Run.fails_bind fun _ _ => hfails.bind
      | logical mark op left? right =>
        rw [replace]
        rcases (by simpa [children] using hpart : left? = some part ∨ part = right) with rfl | rfl
        · exact Run.Fails.bind hfails.bind
        · exact Run.fails_bind fun _ _ => hfails.bind
      | call mark name args =>
        rw [replace]
        exact (fails_evaluateAll hpart hfails).bind
      | returned mark value | modified mark _ value | presence mark _ _ value =>
        rw [replace]
        obtain rfl : part = value := by simpa [children] using hpart
        exact hfails.bind
      | tally mark target entries =>
        rw [replace]
        exact (fails_replaceAll hpart hfails).bind
      | _ => cases hpart

end Expr

/-! ## Circles of names -/

namespace Scope

variable {scope : Scope} {caller : Caller} {names : String → Prop} {name : String}

/-- Each of some names is bound to an expression that mentions one of them. -/
def Entangled (names : String → Prop) (scope : Scope) : Prop :=
  ∀ name, names name → ∃ e other, scope.find? name = some e ∧ e.Mentions other ∧ names other

/-- Names that are entangled have no values: each is worked out inside another one, until one is met again. -/
theorem Entangled.fails_resolve (h : scope.Entangled names) (hname : names name) (span : Span) :
    ((scope.env caller).resolve name span).Fails := by
  induction hfree : scope.freeAmong scope.names using Nat.strongRecOn generalizing scope name span with
  | ind free ih =>
    obtain ⟨e, other, hfind, hmention, hother⟩ := h name hname
    have hreduced : ¬ e.isReduced = true := fun hreduced => Expr.not_mentions_of_isReduced hreduced other hmention
    rw [env_resolve, resolveWith, hfind]
    dsimp only
    rw [if_neg hreduced]
    split
    · exact Run.fails_fail _
    · rename_i hresolving
      have hless := freeAmong_child_resolving (mem_names_of_find? hfind) (Bool.eq_false_iff.mpr hresolving)
      have hchild : (scope.child (.resolving name)).Entangled names := h
      rw [hfree] at hless
      exact Expr.fails_replace (fun span => ih _ hless hchild hother span rfl) hmention

end Scope

/-- Parameters that are left to their defaults cannot be bound if there are entangled ones among them. -/
theorem Function.fails_evaluateDefaults {scope : Scope} {caller : Caller} {names : String → Prop}
    {defaulted : List (String × Span)} (h : scope.Entangled names) (hmem : ∃ entry ∈ defaulted, names entry.1) :
    (evaluateDefaults (Scope.env caller) defaulted scope).Fails := by
  induction defaulted generalizing scope with
  | nil =>
    obtain ⟨entry, hentry, _⟩ := hmem
    cases hentry
  | cons first defaulted ih =>
    rw [evaluateDefaults]
    by_cases hfirst : names first.1
    · exact Run.Fails.bind (h.fails_resolve hfirst first.2)
    · refine Run.fails_bind fun value _ => ih (fun name hname => ?_) ?_
      · have hne : name ≠ first.1 := fun heq => hfirst (heq ▸ hname)
        rw [Scope.find?_assign, if_neg hne]
        exact h name hname
      · obtain ⟨entry, hentry, hnames⟩ := hmem
        rcases List.mem_cons.mp hentry with rfl | hentry
        · exact absurd hnames hfirst
        · exact ⟨entry, hentry, hnames⟩

/-! ## Runs that meet no name inside itself -/

namespace Run

variable {σ α β : Type} {run : Run σ α} {next : α → Run σ β}

/-- A run that from no state fails because a variable depends on itself. -/
def AvoidsRecursion (run : Run σ α) : Prop :=
  ∀ s, TriggerScript.AvoidsRecursion (run s).1

theorem avoidsRecursion_pure (a : α) : AvoidsRecursion (Pure.pure a : Run σ α) :=
  fun _ => avoidsRecursion_ok a

theorem avoidsRecursion_fail {error : Error} (h : error.isRecursion = false) : AvoidsRecursion (Run.fail error : Run σ α) :=
  fun _ => avoidsRecursion_error h

/-- A computation without state meets no name inside itself if its error does not tell so. -/
theorem avoidsRecursion_ofExcept {result : Except Error α} (h : TriggerScript.AvoidsRecursion result) :
    AvoidsRecursion (Run.ofExcept result : Run σ α) :=
  fun _ => h

/-- Runs one after the other meet no name inside itself if none of them does. -/
theorem AvoidsRecursion.bind (h : AvoidsRecursion run)
    (hnext : ∀ a, (∃ s t, run s = (.ok a, t)) → AvoidsRecursion (next a)) :
    AvoidsRecursion (run >>= next) := by
  intro s
  have hfirst := h s
  change TriggerScript.AvoidsRecursion (Run.bind run next s).1
  unfold Run.bind
  generalize hrun : run s = outcome at hfirst
  obtain ⟨result, t⟩ := outcome
  cases result with
  | ok a => exact hnext a ⟨s, t, hrun⟩ t
  | error error => exact avoidsRecursion_error (hfirst error rfl)

end Run

/-- To avoid recursion is kept where runs follow one another. -/
theorem isCongruence_avoidsRecursion :
    Eval.IsCongruence (fun error => error.isRecursion = false) fun _ run _ => Run.AvoidsRecursion run where
  admits h := h
  ofExcept h := Run.avoidsRecursion_ofExcept h
  bind h hnext := h.bind hnext

/-- An expression without calls fails because a variable depends on itself only if a name in it does. -/
theorem Expr.avoidsRecursion_replace {env : Env} {e : Expr} (hcalls : e.IsCallFree)
    (h : ∀ name, e.Mentions name → ∀ span, (env.resolve name span).AvoidsRecursion) : (e.replace env).AvoidsRecursion :=
  @related_replace _ _ isCongruence_avoidsRecursion env env e (fun mark name hnode => h name ⟨mark, hnode⟩ mark.span)
    fun mark name args hnode => absurd hnode (hcalls mark name args)

/-! ## Scopes without circles -/

namespace Scope

variable {scope : Scope} {name : String}

/-- What a name is bound to mentions another name. -/
def Awaits (scope : Scope) (name other : String) : Prop :=
  ∃ e, scope.find? name = some e ∧ e.Mentions other

/-- No name awaits itself, directly or through others, and nothing that is left to work out calls anything. -/
structure IsAcyclic (scope : Scope) : Prop where
  callFree : ∀ {name e}, scope.find? name = some e → e.isReduced = false → e.IsCallFree
  acyclic : ∀ name, ¬ Relation.TransGen scope.Awaits name name

theorem IsAcyclic.child (h : scope.IsAcyclic) (context : Context) : (scope.child context).IsAcyclic :=
  ⟨h.callFree, h.acyclic⟩

/-- A name can be bound to anything in which nothing is left to work out. -/
theorem IsAcyclic.assign (h : scope.IsAcyclic) {value : Expr} (hvalue : ∀ node ∈ value.nodes, node.isPending = false) :
    (scope.assign name value).IsAcyclic := by
  refine ⟨fun {other e} hfind hreduced => ?_, fun other hcircle => h.acyclic other ?_⟩
  · rw [find?_assign] at hfind
    split at hfind
    · obtain rfl := Option.some.inj hfind
      intro mark target args hmem
      cases hvalue _ hmem
    · exact h.callFree hfind hreduced
  · refine Relation.TransGen.mono ?_ other other hcircle
    rintro first second ⟨e, hfind, hmention⟩
    rw [find?_assign] at hfind
    split at hfind
    · obtain rfl := Option.some.inj hfind
      exact absurd hmention (Expr.not_mentions_of_isPending hvalue second)
    · exact ⟨e, hfind, hmention⟩

/-- A name is not met inside itself if those that are being worked out await it. -/
theorem IsAcyclic.avoidsRecursion_resolve {caller : Caller} (h : scope.IsAcyclic)
    (hresolving : ∀ other, scope.isResolving other = true → Relation.TransGen scope.Awaits other name) (span : Span) :
    ((scope.env caller).resolve name span).AvoidsRecursion := by
  induction hfree : scope.freeAmong scope.names using Nat.strongRecOn generalizing scope name span with
  | ind free ih =>
    rw [env_resolve, resolveWith]
    cases hfind : scope.find? name with
    | none =>
      dsimp only
      split
      · exact Run.avoidsRecursion_pure _
      · exact Run.avoidsRecursion_fail rfl
    | some e =>
      dsimp only
      split
      · exact Run.avoidsRecursion_pure _
      · rename_i hreduced
        split
        · rename_i hself
          exact absurd (hresolving name hself) (h.acyclic name)
        · rename_i hself
          have hless := freeAmong_child_resolving (mem_names_of_find? hfind) (Bool.eq_false_iff.mpr hself)
          rw [hfree] at hless
          refine Expr.avoidsRecursion_replace (h.callFree hfind (Bool.eq_false_iff.mpr hreduced)) fun other hother span => ?_
          refine ih _ hless (h.child (.resolving name)) (fun outer houter => ?_) span rfl
          have hawaits : scope.Awaits name other := ⟨e, hfind, hother⟩
          rw [isResolving_child_resolving, Bool.or_eq_true, decide_eq_true_eq] at houter
          rcases houter with rfl | houter
          · exact .single hawaits
          · exact (hresolving outer houter).tail hawaits

end Scope

/-! ## What names resolve to -/

namespace Discipline

/-- Everything may be written and bound, and in a value nothing is left to work out. -/
def settled (table : Bindings Function) : Discipline :=
  references table (fun _ => True) fun _ => True

variable {table : Bindings Function}

/-- Every tree may be written. -/
theorem written_settled (table : Bindings Function) (e : Expr) : (settled table).Written e := by
  intro node _
  cases node <;> trivial

/-- Whatever the functions are, evaluation leaves nothing to work out in a value. -/
theorem lawful_settled : (settled table).Lawful := by
  refine lawful_references (fun _ _ => trivial) fun _ function _ => ?_
  exact ⟨fun _ _ => trivial, fun _ _ default _ => written_settled table default,
    admissibleBlock_of_forall (written_settled table) (fun _ => trivial) function.body⟩

/-- Every scope is admitted. -/
theorem admits_settled (scope : Scope) : (settled scope.globalFrame.functions).Admits scope.depth scope :=
  ⟨rfl, rfl, fun _ _ _ value _ => ⟨trivial, written_settled scope.globalFrame.functions value⟩⟩

end Discipline

namespace Scope

variable {scope : Scope}

/-- In what a name resolves to, nothing is left to work out. -/
theorem isPending_of_resolve {badge : String} {left : Nat} {name : String} {span : Span} {value : Expr}
    {output output' : Output}
    (h : (scope.env ⟨badge, Function.callWithin badge left⟩).resolve name span output = (.ok value, output')) :
    ∀ node ∈ value.nodes, node.isPending = false := by
  have henv : (Discipline.settled scope.globalFrame.functions).EnvAgree (scope.env ⟨badge, Function.callWithin badge left⟩)
      (scope.env ⟨badge, Function.callWithin badge left⟩) := by
    refine Discipline.agree_env Discipline.lawful_settled rfl ?_ (Discipline.admits_settled scope)
    intro inner function values span hinner hfunction hvalues
    exact Discipline.agree_callWithin Discipline.lawful_settled (Nat.le_refl _) (fun hne => absurd rfl hne) hinner hfunction
      hvalues
  have hmade := (henv.resolve name span output trivial).2.1 value (congrArg Prod.fst h)
  exact fun node hnode => (hmade node hnode).1

/-- In the values of arguments, nothing is left to work out. -/
theorem isPending_of_evaluateAll {settings : Settings} {args values : List Expr} {output output' : Output}
    (h : Expr.evaluateAll (scope.envUnder settings) args output = (.ok values, output')) :
    ∀ value ∈ values, ∀ node ∈ value.nodes, node.isPending = false := by
  have henv := Discipline.agree_envUnder Discipline.lawful_settled settings (Discipline.admits_settled scope)
  have hagree := Discipline.agree_evaluateAll fun e (_ : e ∈ args) =>
    Discipline.agree_replace Discipline.lawful_settled henv (Discipline.written_settled _ e)
  have hmade := (hagree output trivial).2.1 values (congrArg Prod.fst h)
  exact fun value hvalue node hnode => (hmade value hvalue node hnode).1

end Scope

/-! ## Binding parameters -/

/-- Among some parameters, the default of one mentions another one or the same. -/
def Parameter.DefaultMentions (parameters : List Parameter) (name other : String) : Prop :=
  (∃ default, ⟨name, some default⟩ ∈ parameters ∧ default.Mentions other) ∧ other ∈ parameters.map (·.name)

namespace Function

variable {parameters : List Parameter} {values : List Expr} {scope bound : Scope} {defaulted : List (String × Span)}

/-- A scope in which parameters are bound to values, and those that are left to their defaults as they are written. -/
structure Binds (parameters : List Parameter) (values : List Expr) (scope bound : Scope) (defaulted : List (String × Span)) :
    Prop where
  names : defaulted.map (·.1) = (parameters.drop values.length).map (·.name)
  default : ∀ {name default}, ⟨name, some default⟩ ∈ parameters.drop values.length → bound.find? name = some default
  cases : ∀ {name e}, bound.find? name = some e →
    e ∈ values ∨ ⟨name, some e⟩ ∈ parameters.drop values.length ∨ scope.find? name = some e
  others : ∀ {name}, name ∉ parameters.map (·.name) → bound.find? name = scope.find? name
  resolving : ∀ name, bound.isResolving name = scope.isResolving name

/-- Where parameters have different names, binding them makes such a scope. -/
theorem binds_of_bindParameters {function : String} {span : Span} (hnames : (parameters.map (·.name)).Nodup)
    (h : bindParameters function span parameters values scope = .ok (bound, defaulted)) :
    Binds parameters values scope bound defaulted := by
  induction parameters generalizing values scope defaulted with
  | nil =>
    rw [bindParameters] at h
    obtain ⟨rfl, rfl⟩ := Prod.mk.inj (Except.ok.inj h)
    exact ⟨by simp, by simp, fun hfind => .inr (.inr hfind), fun _ => rfl, fun _ => rfl⟩
  | cons parameter parameters ih =>
    rw [List.map_cons, List.nodup_cons] at hnames
    cases values with
    | cons value values =>
      rw [bindParameters] at h
      have hrest := ih hnames.2 h
      refine ⟨hrest.names, hrest.default, fun {name e} hfind => ?_, fun hname => ?_, hrest.resolving⟩
      · rcases hrest.cases hfind with hmem | hmem | hfind
        · exact .inl (List.mem_cons_of_mem _ hmem)
        · exact .inr (.inl hmem)
        · rw [Scope.find?_assign] at hfind
          split at hfind
          · exact .inl (Option.some.inj hfind ▸ List.mem_cons_self)
          · exact .inr (.inr hfind)
      · rw [List.map_cons, List.mem_cons, not_or] at hname
        rw [hrest.others hname.2, Scope.find?_assign, if_neg hname.1]
    | nil =>
      obtain ⟨first, default?⟩ := parameter
      cases default? with
      | none => cases h
      | some default =>
        obtain ⟨⟨bound', defaulted'⟩, hbind, h⟩ := bind_eq_ok.mp h
        obtain ⟨rfl, rfl⟩ := Prod.mk.inj (Except.ok.inj h)
        have hrest := ih hnames.2 hbind
        have hfirst : bound'.find? first = some default := by
          rw [hrest.others hnames.1, Scope.find?_assign, if_pos rfl]
        refine ⟨congrArg (first :: ·) hrest.names, fun {name e} hmem => ?_, fun {name e} hfind => ?_, fun hname => ?_,
          hrest.resolving⟩
        · rcases List.mem_cons.mp hmem with heq | hmem
          · obtain ⟨rfl, hdefault⟩ := Parameter.mk.inj heq
            exact hfirst.trans hdefault.symm
          · exact hrest.default hmem
        · rcases hrest.cases hfind with hmem | hmem | hfind
          · cases hmem
          · exact .inr (.inl (List.mem_cons_of_mem _ hmem))
          · rw [Scope.find?_assign] at hfind
            split at hfind
            · rename_i heq
              obtain rfl := Option.some.inj hfind
              exact .inr (.inl (heq ▸ List.mem_cons_self))
            · exact .inr (.inr hfind)
        · rw [List.map_cons, List.mem_cons, not_or] at hname
          rw [hrest.others hname.2, Scope.find?_assign, if_neg hname.1]

/-- Binding parameters fails for lack of an argument only. -/
theorem avoidsRecursion_bindParameters (function : String) (span : Span) (parameters : List Parameter) (values : List Expr)
    (scope : Scope) : AvoidsRecursion (bindParameters function span parameters values scope) := by
  induction parameters generalizing values scope with
  | nil => exact avoidsRecursion_ok _
  | cons parameter parameters ih =>
    cases values with
    | cons value values => exact ih values _
    | nil =>
      obtain ⟨name, default?⟩ := parameter
      cases default? with
      | none => exact avoidsRecursion_error rfl
      | some default => exact (ih [] _).bind fun _ => avoidsRecursion_ok _

/-- Names in a circle of defaults are entangled. -/
theorem Binds.entangled (h : Binds parameters values scope bound defaulted) :
    bound.Entangled fun name =>
      Relation.TransGen (Parameter.DefaultMentions (parameters.drop values.length)) name name := by
  intro name hcircle
  obtain ⟨other, hedge, hback⟩ := Relation.TransGen.head'_iff.mp hcircle
  obtain ⟨default, hmem, hmention⟩ := hedge.1
  exact ⟨default, other, h.default hmem, hmention, Relation.TransGen.tail' hback hedge⟩

section Acyclic

variable (h : Binds parameters values scope bound defaulted)
  (hvalues : ∀ value ∈ values, ∀ node ∈ value.nodes, node.isPending = false)
  (hscope : ∀ name e, scope.find? name = some e → e.isReduced = true)
include h hvalues hscope

/-- Only a parameter that is left to its default awaits anything. -/
theorem Binds.mem_of_awaits {name other : String} (hawaits : bound.Awaits name other) :
    ∃ default, ⟨name, some default⟩ ∈ parameters.drop values.length ∧ default.Mentions other := by
  obtain ⟨e, hfind, hmention⟩ := hawaits
  rcases h.cases hfind with hmem | hmem | hfind
  · exact absurd hmention (Expr.not_mentions_of_isPending (hvalues e hmem) other)
  · exact ⟨e, hmem, hmention⟩
  · exact absurd hmention (Expr.not_mentions_of_isReduced (hscope name e hfind) other)

/-- A way from name to name stays among the parameters that are left to their defaults, as long as it goes on. -/
theorem Binds.transGen_of_awaits {name other : String} (hway : Relation.TransGen bound.Awaits name other)
    (hmore : ∃ next, bound.Awaits other next) :
    Relation.TransGen (Parameter.DefaultMentions (parameters.drop values.length)) name other := by
  have hedge : ∀ {first second third}, bound.Awaits first second → bound.Awaits second third →
      Parameter.DefaultMentions (parameters.drop values.length) first second := by
    intro first second third hfirst hsecond
    obtain ⟨default, hmem, _⟩ := h.mem_of_awaits hvalues hscope hsecond
    exact ⟨h.mem_of_awaits hvalues hscope hfirst, List.mem_map_of_mem hmem⟩
  induction hway with
  | single hawaits =>
    obtain ⟨next, hnext⟩ := hmore
    exact .single (hedge hawaits hnext)
  | tail _ hawaits ih =>
    obtain ⟨next, hnext⟩ := hmore
    exact (ih ⟨_, hawaits⟩).tail (hedge hawaits hnext)

/-- Without a circle of defaults, there is no circle of names. -/
theorem Binds.isAcyclic
    (hcalls : ∀ parameter ∈ parameters, ∀ default, parameter.default? = some default → default.IsCallFree)
    (hacyclic : ∀ name, ¬ Relation.TransGen (Parameter.DefaultMentions (parameters.drop values.length)) name name) :
    bound.IsAcyclic := by
  refine ⟨fun {name e} hfind hreduced => ?_, fun name hcircle => hacyclic name ?_⟩
  · rcases h.cases hfind with hmem | hmem | hfind
    · intro mark target args hnode
      cases hvalues e hmem _ hnode
    · exact hcalls _ (List.mem_of_mem_drop hmem) e rfl
    · rw [hscope name e hfind] at hreduced
      cases hreduced
  · obtain ⟨next, hnext, _⟩ := Relation.TransGen.head'_iff.mp hcircle
    exact h.transGen_of_awaits hvalues hscope hcircle ⟨next, hnext⟩

end Acyclic

/-- Defaults in a scope without circles are worked out without meeting any name inside itself: each of them is then bound to
a value, which awaits nothing. -/
theorem avoidsRecursion_evaluateDefaults {badge : String} {left : Nat} (h : scope.IsAcyclic)
    (hresolving : ∀ name, scope.isResolving name = false) (defaulted : List (String × Span)) :
    (evaluateDefaults (Scope.env ⟨badge, callWithin badge left⟩) defaulted scope).AvoidsRecursion := by
  induction defaulted generalizing scope with
  | nil => exact Run.avoidsRecursion_pure _
  | cons first defaulted ih =>
    rw [evaluateDefaults]
    have hfirst : ((scope.env ⟨badge, callWithin badge left⟩).resolve first.1 first.2).AvoidsRecursion := by
      refine h.avoidsRecursion_resolve (fun other hother => ?_) first.2
      rw [hresolving other] at hother
      cases hother
    refine Run.AvoidsRecursion.bind hfirst fun value hvalue => ?_
    obtain ⟨output, output', hvalue⟩ := hvalue
    exact ih (h.assign (Scope.isPending_of_resolve hvalue)) hresolving

section Arguments

variable {function : Function} (hnames : (function.parameters.map (·.name)).Nodup)
include hnames

/-- A circle among the parameters that are left to their defaults keeps a call from running its body. -/
theorem fails_bindArguments {caller : Caller} {name : String}
    (hcircle : Relation.TransGen (Parameter.DefaultMentions (function.parameters.drop values.length)) name name)
    (span : Span) :
    (function.bindArguments (Scope.env caller) scope values span).Fails := by
  refine Run.fails_bind fun ⟨bound, defaulted⟩ ⟨_, _, hbind⟩ => ?_
  have hbinds := binds_of_bindParameters hnames (Prod.mk.inj hbind).1
  refine fails_evaluateDefaults hbinds.entangled ?_
  obtain ⟨_, ⟨⟨default, hmem, _⟩, _⟩, _⟩ := Relation.TransGen.head'_iff.mp hcircle
  have hname : name ∈ defaulted.map (·.1) := hbinds.names ▸ List.mem_map_of_mem hmem
  obtain ⟨entry, hentry, rfl⟩ := List.mem_map.mp hname
  exact ⟨entry, hentry, hcircle⟩

/-- Without such a circle, and without calls in the defaults, no variable is found to depend on itself. -/
theorem avoidsRecursion_bindArguments {badge : String} {left : Nat} (hcontext : scope.globalFrame.context = .global)
    (hglobals : ∀ name e, scope.globalFrame.locals.find? name = some e → e.isReduced = true)
    (hvalues : ∀ value ∈ values, ∀ node ∈ value.nodes, node.isPending = false)
    (hcalls : ∀ parameter ∈ function.parameters, ∀ default, parameter.default? = some default → default.IsCallFree)
    (hacyclic : ∀ name,
      ¬ Relation.TransGen (Parameter.DefaultMentions (function.parameters.drop values.length)) name name) (span : Span) :
    (function.bindArguments (Scope.env ⟨badge, callWithin badge left⟩) scope values span).AvoidsRecursion := by
  have hparameters := avoidsRecursion_bindParameters function.name span function.parameters values
    (scope.call function.name span)
  refine (Run.avoidsRecursion_ofExcept hparameters).bind fun ⟨bound, defaulted⟩ ⟨_, _, hbind⟩ => ?_
  have hbinds := binds_of_bindParameters hnames (Prod.mk.inj hbind).1
  have hscope : ∀ name e, (scope.call function.name span).find? name = some e → e.isReduced = true := by
    intro name e hfind
    rw [Scope.find?_call] at hfind
    exact hglobals name e hfind
  refine avoidsRecursion_evaluateDefaults (hbinds.isAcyclic hvalues hscope hcalls hacyclic) (fun name => ?_) defaulted
  rw [hbinds.resolving, Scope.isResolving_call hcontext]

end Arguments

end Function

namespace Scope

variable {scope : Scope} {settings : Settings} {function : Function} {values : List Expr}

/-- The environments inside a call, in which one call less is allowed. -/
def innerEnv (settings : Settings) (scope : Scope) : Scope → Env :=
  env ⟨settings.defaultBadge, Function.callWithin settings.defaultBadge (settings.maxCallDepth - scope.depth - 1)⟩

/-- A call that is allowed records itself, binds the parameters and runs the body. -/
theorem envUnder_call_eq_bindArguments {name : String} (hdepth : scope.depth < settings.maxCallDepth)
    (hcallee : scope.callee name = .function function) (hfew : values.length ≤ function.parameters.length) (span : Span) :
    (scope.envUnder settings).call name values span = (do
      Eval.record (.called scope.frame.context function.name values.length)
      let inner ← function.bindArguments (scope.innerEnv settings) scope values span
      function.runBody (scope.innerEnv settings) inner) := by
  have hleft : settings.maxCallDepth - scope.depth = settings.maxCallDepth - scope.depth - 1 + 1 := by omega
  rw [envUnder_call_of_callee hleft hcallee, Function.run_eq_bindArguments hfew]
  rfl

/-- A function whose defaults mention one another in a circle, which an argument for the first parameter opens. -/
def circular : Function :=
  { name := "f"
    parameters := [⟨"a", some (.var {} "b")⟩, ⟨"b", some (.arithmetic {} .add (.var {} "c") (.integer {} 1))⟩,
      ⟨"c", some (.var {} "a")⟩]
    body := [.expression (.returned {} (.array {} [.var {} "a", .var {} "b", .var {} "c"]))]
    span := {} }

/-- A scope with this function and a variable that is called like one of its parameters. -/
def withCircular : Scope :=
  (Scope.global.assign "b" (.integer {} 7)).define circular

end Scope

end TriggerScript
