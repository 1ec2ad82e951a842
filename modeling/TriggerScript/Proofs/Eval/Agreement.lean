import TriggerScript.Exec
import TriggerScript.Proofs.Eval.Fold
import TriggerScript.Proofs.Expr.Nodes

/-!
# Runs that agree

Evaluation asks its environment what names and calls mean. Here two environments are compared that answer alike, and at the
same time it is recorded what the answers are: a discipline says what the nodes of written expressions, of bound expressions
and of values may be. Under environments that agree by a discipline all expressions agree by it. With one environment in both
places this says what evaluation keeps; with two it says that a difference between them cannot be seen.
-/

namespace TriggerScript

namespace Run

variable {σ α β : Type}

/-- From every state that meets an invariant, two runs end alike, keep the invariant and have results that meet a condition.
The first run may also fail with an exempt error where the second goes on. -/
def Agree (exempt : Error → Prop) (inv : σ → Prop) (post : α → Prop) (run run' : Run σ α) : Prop :=
  ∀ s, inv s → inv (run s).2 ∧ (∀ a, (run s).1 = .ok a → post a) ∧
    (run s = run' s ∨ ∃ error, (run s).1 = .error error ∧ exempt error)

variable {exempt : Error → Prop} {inv : σ → Prop} {post : α → Prop}

theorem agree_pure {a : α} (h : post a) : Agree exempt inv post (Pure.pure a) (Pure.pure a) := by
  intro s hs
  refine ⟨hs, ?_, .inl rfl⟩
  intro a' ha
  obtain rfl := Except.ok.inj ha
  exact h

theorem agree_fail (error : Error) : Agree exempt inv post (Run.fail error) (Run.fail error) := by
  intro s hs
  refine ⟨hs, ?_, .inl rfl⟩
  intro a ha
  cases ha

/-- A computation without a state agrees with itself. -/
theorem agree_ofExcept {result : Except Error α} (h : ∀ a, result = .ok a → post a) :
    Agree exempt inv post (ofExcept result) (ofExcept result) :=
  fun _ hs => ⟨hs, h, .inl rfl⟩

/-- A run that keeps the invariant agrees with itself. -/
theorem agree_refl {run : Run σ α} (hinv : ∀ s, inv s → inv (run s).2) :
    Agree exempt inv (fun _ => True) run run :=
  fun s hs => ⟨hinv s hs, fun _ _ => trivial, .inl rfl⟩

/-- Runs that agree go on to agree if what follows does for every result. -/
theorem Agree.bind {run run' : Run σ α} {next next' : α → Run σ β} {post' : β → Prop}
    (h : Agree exempt inv post run run') (hnext : ∀ a, post a → Agree exempt inv post' (next a) (next' a)) :
    Agree exempt inv post' (run >>= next) (run' >>= next') := by
  intro s hs
  obtain ⟨hinv, hpost, hsame⟩ := h s hs
  change inv (Run.bind run next s).2 ∧ (∀ b, (Run.bind run next s).1 = .ok b → post' b) ∧
    (Run.bind run next s = Run.bind run' next' s ∨ ∃ error, (Run.bind run next s).1 = .error error ∧ exempt error)
  unfold Run.bind
  generalize hrun : run s = outcome at hinv hpost hsame
  obtain ⟨result, s'⟩ := outcome
  cases result with
  | ok a =>
    obtain ⟨hinv', hpost', hsame'⟩ := hnext a (hpost a rfl) s' hinv
    rcases hsame with hsame | ⟨error, herror, _⟩
    · rw [← hsame]
      exact ⟨hinv', hpost', hsame'⟩
    · cases herror
  | error error =>
    refine ⟨hinv, ?_, ?_⟩
    · intro b hb
      cases hb
    · rcases hsame with hsame | ⟨error', herror, hexempt⟩
      · rw [← hsame]
        exact .inl rfl
      · obtain rfl := Except.error.inj herror
        exact .inr ⟨error, rfl, hexempt⟩

/-- A step without a state whose result does not matter. -/
theorem agree_skip {result : Except Error α} {next next' : α → Run σ β} {post : β → Prop}
    (h : ∀ a, Agree exempt inv post (next a) (next' a)) :
    Agree exempt inv post (ofExcept result >>= next) (ofExcept result >>= next') := by
  have hresult : Agree exempt inv (fun _ => True) (ofExcept result : Run σ α) (ofExcept result) :=
    agree_ofExcept fun _ _ => trivial
  exact hresult.bind fun a _ => h a

/-- A last change of the state that keeps the invariant makes no difference. -/
theorem Agree.andFinally {run run' : Run σ α} {change : σ → σ} (h : Agree exempt inv post run run')
    (hchange : ∀ s, inv s → inv (change s)) : Agree exempt inv post (run.andFinally change) (run'.andFinally change) := by
  intro s hs
  obtain ⟨hinv, hresult, hsame⟩ := h s hs
  refine ⟨hchange _ hinv, hresult, ?_⟩
  rcases hsame with hsame | hexempt
  · left
    unfold Run.andFinally
    rw [hsame]
  · exact .inr hexempt

/-- A change of the state that keeps the invariant agrees with itself. -/
theorem agree_modify {change : σ → σ} (h : ∀ s, inv s → inv (change s)) :
    Agree exempt inv (fun _ => True) (modify change) (modify change) :=
  agree_refl h

end Run

/-- What evaluation makes of evaluated parts: no node is left to work out, references name what is defined, the keys of a
dictionary differ, operators stay only over memory and connectives only over conditions that are no constants. -/
def Expr.IsMade (defined : String → Prop) : Expr → Prop
  | .var .. | .indexed .. | .call .. | .returned .. => False
  | .functionRef _ name => defined name
  | .dictionary _ entries => (entries.map (·.1)).Pairwise fun key key' => key.same key' = false
  | .arithmetic _ _ left right | .comparison _ _ left right =>
    (left.readsMemory = true ∨ right.readsMemory = true) ∧ left.isNumeric = true ∧ right.isNumeric = true
  | .logical _ .not none right => right.isOperand = true ∧ right.truth? = none
  | .logical _ .and (some left) right | .logical _ .or (some left) right =>
    (left.isOperand = true ∧ left.truth? = none) ∧ right.isOperand = true ∧ right.truth? = none
  | .logical .. => False
  | .integer .. | .text .. | .boolean .. | .array .. | .memory .. | .modified .. | .tally .. | .alwaysTrue .. | .alwaysFalse ..
  | .presence .. => True

/-- The conditions under which a script is evaluated, for the nodes of its trees and for all that it changes. -/
structure Discipline where
  /-- The functions of the script. -/
  table : Bindings Function
  /-- What a node of an expression that is evaluated may be. -/
  written : Expr → Prop
  /-- What a node of an expression that a variable is bound to may be. -/
  held : Expr → Prop
  /-- What a node of a value may be. -/
  made : Expr → Prop
  /-- What a joined condition may be. -/
  operand : Expr → Prop
  /-- What a variable may be called. -/
  name : String → Prop
  /-- What may have been registered. -/
  output : Output → Prop
  /-- Errors that need not be met again. -/
  exempt : Error → Prop

namespace Discipline

variable (d : Discipline)

/-- Whether a name calls a function. -/
def Defined (name : String) : Prop :=
  (d.table.find? name).isSome = true ∨ Builtin.isName name = true

/-- An expression that may be evaluated. -/
abbrev Written (e : Expr) : Prop :=
  e.Everywhere d.written

/-- An expression that a variable may be bound to. -/
abbrev Held (e : Expr) : Prop :=
  e.Everywhere d.held

/-- A value. -/
abbrev Made (e : Expr) : Prop :=
  e.Everywhere d.made

/-- A value, or none. -/
def MadeOption (result : Option Expr) : Prop :=
  ∀ value, result = some value → d.Made value

mutual

/-- A statement whose expressions may be evaluated and whose names may be bound. -/
def Admissible : Stmt → Prop
  | .assign name indices value => d.name name ∧ (∀ index ∈ indices, d.Written index) ∧ d.Written value
  | .define .. => True
  | .loop name collection body => d.name name ∧ d.Written collection ∧ AdmissibleBlock body
  | .choose condition yes no => d.Written condition ∧ AdmissibleBlock yes ∧ AdmissibleBlock no
  | .expression (.returned _ value) => d.Written value
  | .expression (.call _ _ args) => ∀ arg ∈ args, d.Written arg
  | .expression _ => True

/-- A block of such statements. -/
def AdmissibleBlock : List Stmt → Prop
  | [] => True
  | s :: ss => Admissible s ∧ AdmissibleBlock ss

end

/-- A function that may be called. -/
structure Callable (function : Function) : Prop where
  /-- Its parameters may be bound. -/
  names : ∀ parameter ∈ function.parameters, d.name parameter.name
  /-- Its defaults may be bound. -/
  defaults : ∀ parameter ∈ function.parameters, ∀ default, parameter.default? = some default → d.Held default
  /-- Its body may be run. -/
  body : d.AdmissibleBlock function.body

/-- What makes a discipline one that evaluation keeps. -/
structure Lawful : Prop where
  /-- What evaluation makes is a value. -/
  made_of_isMade : ∀ {e : Expr}, e.IsMade d.Defined → d.made e
  /-- A reference that is written is a value. -/
  made_reference : ∀ {mark : Mark} {name : String}, d.written (.functionRef mark name) → d.made (.functionRef mark name)
  /-- The end of a function that is written stays one. -/
  made_returned : ∀ {mark : Mark} {e v : Expr}, d.written (.returned mark e) → d.made (.returned mark v)
  /-- Marks make no difference to a value. -/
  made_withMark : ∀ {mark : Mark} {e : Expr}, d.made e → d.made (e.withMark mark)
  /-- Variables may be bound to values. -/
  held_of_made : ∀ {e : Expr}, d.made e → d.held e
  /-- What a variable is bound to is a value if nothing is left to work out in it. -/
  made_of_held : ∀ {e : Expr}, d.Held e → e.isReduced = true → d.Made e
  /-- Otherwise it may be evaluated. -/
  written_of_held : ∀ {e : Expr}, d.Held e → e.isReduced = false → d.Written e
  /-- A dictionary may be given another value under a key, or another key that it does not have. -/
  held_dictionary : ∀ {mark : Mark} {entries entries' : List (Expr × Expr)}, d.held (.dictionary mark entries) →
    (entries'.map (·.1) = entries.map (·.1) ∨ ∃ key, entries'.map (·.1) = entries.map (·.1) ++ [key] ∧
      ∀ other ∈ entries.map (·.1), other.same key = false) → d.held (.dictionary mark entries')
  /-- What may be an operand may be joined. -/
  operand_of_isOperand : ∀ {e : Expr}, e.isOperand = true → d.operand e
  operand_withMark : ∀ {mark : Mark} {e : Expr}, d.operand e → d.operand (e.withMark mark)
  /-- The negation of a condition is a value and may be joined. -/
  made_invert : ∀ {e : Expr}, d.Made e → e.isCondition = true → d.Made e.invert ∧ d.operand e.invert
  /-- Joined conditions that are no constants are a value. -/
  made_logical : ∀ {mark : Mark} {op : LogicalOp} {left right : Expr}, op ≠ .not → d.operand left → d.operand right →
    left.truth? = none → right.truth? = none → d.made (.logical mark op (some left) right)
  /-- The functions of the script may be called. -/
  callable : ∀ {name : String} {function : Function}, d.table.find? name = some function → d.Callable function
  /-- A call may be put on record. -/
  output_called : ∀ {output : Output} {context : Context} {name : String} {count : Nat}, d.output output →
    d.output (output.record (.called context name count))
  /-- Built-in functions that apply no other function may register what they register. -/
  output_apply : ∀ {badge : String} {apply : String → Expr → Eval (Option Expr)} {builtin : Builtin} {args : Arguments}
    {output : Output}, (∀ joiner, builtin ≠ .join joiner) → d.output output →
    d.output (builtin.apply badge apply args output).2

/-- Two evaluations agree by the discipline. -/
abbrev Agree {α : Type} (post : α → Prop) (run run' : Eval α) : Prop :=
  Run.Agree d.exempt d.output post run run'

/-- Two environments agree by the discipline: on every name, and on every call with values. -/
structure EnvAgree (env env' : Env) : Prop where
  resolve : ∀ name span, d.Agree d.Made (env.resolve name span) (env'.resolve name span)
  call : ∀ name values span, (∀ value ∈ values, d.Made value) →
    d.Agree d.MadeOption (env.call name values span) (env'.call name values span)

end Discipline

/-! ## Expressions -/

namespace Discipline

variable {d : Discipline} (hd : d.Lawful)

theorem madeOption_none : d.MadeOption none := by
  intro value heq
  cases heq

theorem madeOption_some {v : Expr} (h : d.Made v) : d.MadeOption (some v) := by
  intro value heq
  obtain rfl := Option.some.inj heq
  exact h

include hd

/-- A value made of values by a node that evaluation makes. -/
theorem Lawful.made {e : Expr} (hroot : e.IsMade d.Defined) (hparts : ∀ part ∈ e.children, d.Made part) : d.Made e :=
  Expr.everywhere_iff.mpr ⟨hd.made_of_isMade hroot, hparts⟩

/-- A tree without parts is made if its root is. -/
theorem Lawful.made_leaf {e : Expr} (hroot : e.IsMade d.Defined) (hchildren : e.children = []) : d.Made e :=
  Expr.everywhere_of_children_nil hchildren (hd.made_of_isMade hroot)

theorem Lawful.made_asUnit {e : Expr} (h : d.Made e) {mark : Mark} : d.Made (e.withMark mark) :=
  h.withMark (hd.made_withMark h.root)

/-- A value that is made may be held. -/
theorem Lawful.held {e : Expr} (h : d.Made e) : d.Held e :=
  h.mono fun _ => hd.held_of_made

/-- Folding arithmetic of values that are made makes a value. -/
theorem Lawful.made_arithmetic {whole left right v : Expr} {op : ArithmeticOp} (hleft : d.Made left)
    (hright : d.Made right) (h : Fold.arithmetic whole op left right = .ok v) : d.Made v := by
  rcases Fold.arithmetic_cases h with ⟨_, _, _, _, _, _, _, _, _, rfl⟩ | ⟨_, _, rfl⟩ | ⟨hreads, hnumeric, hnumeric', rfl⟩
  · exact hd.made_leaf trivial rfl
  · exact hd.made_leaf trivial rfl
  · refine hd.made ⟨hreads, hnumeric, hnumeric'⟩ ?_
    simp [Expr.children, hleft, hright]

/-- Folding a comparison of values that are made makes a value. -/
theorem Lawful.made_comparison {whole left right v : Expr} {op : ComparisonOp} (hleft : d.Made left)
    (hright : d.Made right) (h : Fold.comparison whole op left right = .ok v) : d.Made v := by
  rcases Fold.comparison_cases h with ⟨_, _, _, _, _, _, rfl⟩ | ⟨_, _, _, _, _, _, rfl⟩ | ⟨_, _, _, _, _, _, _, rfl⟩ | h
  · exact hd.made_leaf trivial rfl
  · exact hd.made_leaf trivial rfl
  · exact hd.made_leaf trivial rfl
  · rcases Fold.openComparison_cases h with ⟨hreads, hnumeric, hnumeric', rfl⟩ | ⟨_, _, _, _, _, rfl⟩
    · refine hd.made ⟨hreads, hnumeric, hnumeric'⟩ ?_
      simp [Expr.children, hleft, hright]
    · exact hd.made_leaf trivial rfl

/-- Two joined values are a value. -/
theorem Lawful.made_connect {absorbing : Bool} {op : LogicalOp} {mark mark' : Mark} {left right : Expr} (hop : op ≠ .not)
    (hleft : d.Made left) (hright : d.Made right) (hleft' : d.operand left) (hright' : d.operand right) :
    d.Made (Fold.connect absorbing (.boolean mark absorbing) (.logical mark' op (some left) right) left right) ∧
      d.operand (Fold.connect absorbing (.boolean mark absorbing) (.logical mark' op (some left) right) left right) := by
  rcases Fold.connect_cases absorbing (.boolean mark absorbing) (.logical mark' op (some left) right) left right with
    ⟨_, h⟩ | ⟨_, h⟩ | ⟨_, h⟩ | ⟨hconst, hconst', h⟩
  · rw [h]
    exact ⟨hd.made_leaf trivial rfl, hd.operand_of_isOperand rfl⟩
  · rw [h]
    exact ⟨hright, hright'⟩
  · rw [h]
    exact ⟨hleft, hleft'⟩
  · rw [h]
    refine ⟨Expr.everywhere_iff.mpr ⟨hd.made_logical hop hleft' hright' hconst hconst', ?_⟩, hd.operand_of_isOperand rfl⟩
    simp [Expr.children, hleft, hright]

/-- Folding a connective of values that are made makes a value. -/
theorem Lawful.made_folded {whole right v : Expr} {op : LogicalOp} {left? : Option Expr}
    (hleft : d.MadeOption left?) (hright : d.Made right)
    (h : Fold.logical whole op left? right = .ok v) : d.Made v := by
  rcases Fold.logical_cases h with ⟨rfl, hoperand, rfl⟩ | ⟨left, hop, rfl, hoperand, hoperand', rfl⟩
  · rcases Fold.negation_cases whole right with ⟨value, _, hv⟩ | ⟨hconst, hv⟩
    · rw [hv]
      exact hd.made_leaf trivial rfl
    · rw [hv]
      refine hd.made ⟨hoperand, hconst⟩ ?_
      simp [Expr.children, hright]
  · exact (hd.made_connect hop (hleft left rfl) hright (hd.operand_of_isOperand hoperand)
      (hd.operand_of_isOperand hoperand')).1

end Discipline

/-- An entry that is found stands in the dictionary, under the same key. -/
theorem exists_of_findValue? {key value : Expr} {entries : List (Expr × Expr)} (h : findValue? key entries = some value) :
    ∃ candidate, (candidate, value) ∈ entries ∧ candidate.same key = true := by
  induction entries with
  | nil => cases h
  | cons entry entries ih =>
    rw [findValue?] at h
    split at h
    · rename_i hsame
      obtain rfl := Option.some.inj h
      exact ⟨entry.1, List.mem_cons_self, hsame⟩
    · obtain ⟨candidate, hmem, hsame⟩ := ih h
      exact ⟨candidate, List.mem_cons_of_mem _ hmem, hsame⟩

namespace Discipline

variable {d : Discipline}

/-- Runs that agree do so where a value is required first. -/
theorem agree_ifValue {e : Expr} {run run' : Eval Expr} {post : Expr → Prop} (h : d.Agree post run run') :
    d.Agree post (e.ifValue run) (e.ifValue run') := by
  unfold Expr.ifValue
  split
  · exact h
  · exact Run.agree_fail _

section Lists

variable {env env' : Env}

/-- Trees one after the other are replaced alike, by values that are made, if each of them is. -/
theorem agree_replaceAll {es : List Expr} (h : ∀ e ∈ es, d.Agree d.Made (e.replace env) (e.replace env')) :
    d.Agree (fun values => ∀ value ∈ values, d.Made value) (Expr.replaceAll env es) (Expr.replaceAll env' es) := by
  induction es with
  | nil => exact Run.agree_pure (List.forall_mem_nil _)
  | cons e es ih =>
    rw [List.forall_mem_cons] at h
    refine h.1.bind fun first hfirst => (ih h.2).bind fun others hothers => ?_
    exact Run.agree_pure (List.forall_mem_cons.mpr ⟨hfirst, hothers⟩)

/-- Trees one after the other are evaluated alike, to values that are made, if each of them is replaced alike. -/
theorem agree_evaluateAll {es : List Expr} (h : ∀ e ∈ es, d.Agree d.Made (e.replace env) (e.replace env')) :
    d.Agree (fun values => ∀ value ∈ values, d.Made value) (Expr.evaluateAll env es) (Expr.evaluateAll env' es) := by
  induction es with
  | nil => exact Run.agree_pure (List.forall_mem_nil _)
  | cons e es ih =>
    rw [List.forall_mem_cons] at h
    refine (agree_ifValue h.1).bind fun first hfirst => (ih h.2).bind fun others hothers => ?_
    exact Run.agree_pure (List.forall_mem_cons.mpr ⟨hfirst, hothers⟩)

/-- The entries of a dictionary become values, and no key is the same as an earlier one. -/
theorem agree_evaluateEntries {entries done : List (Expr × Expr)}
    (h : ∀ entry ∈ entries, d.Agree d.Made (entry.1.replace env) (entry.1.replace env') ∧
      d.Agree d.Made (entry.2.replace env) (entry.2.replace env'))
    (hdone : ∀ entry ∈ done, d.Made entry.1 ∧ d.Made entry.2)
    (hkeys : (done.map (·.1)).Pairwise fun key key' => key.same key' = false) :
    d.Agree (fun result => (∀ entry ∈ result, d.Made entry.1 ∧ d.Made entry.2) ∧
        (result.map (·.1)).Pairwise fun key key' => key.same key' = false)
      (Expr.evaluateEntries env done entries) (Expr.evaluateEntries env' done entries) := by
  induction entries generalizing done with
  | nil => exact Run.agree_pure ⟨hdone, hkeys⟩
  | cons entry entries ih =>
    rw [List.forall_mem_cons] at h
    refine (agree_ifValue h.1.1).bind fun key hkey => ?_
    by_cases hsame : done.any (·.1.same key) = true
    · rw [if_pos hsame, if_pos hsame]
      exact Run.agree_fail _
    · rw [if_neg hsame, if_neg hsame]
      refine (agree_ifValue h.1.2).bind fun value hvalue => ih h.2 ?_ ?_
      · rw [List.forall_mem_append, List.forall_mem_singleton]
        exact ⟨hdone, hkey, hvalue⟩
      · rw [List.map_append, List.pairwise_append]
        refine ⟨hkeys, List.pairwise_singleton _ _, ?_⟩
        intro other hother key' hkey'
        obtain ⟨entry', hentry', rfl⟩ := List.mem_map.mp hother
        obtain rfl := List.mem_singleton.mp hkey'
        rw [List.any_eq_true, not_exists] at hsame
        exact Bool.eq_false_iff.mpr fun htrue => hsame entry' ⟨hentry', htrue⟩

end Lists

/-- An entry of a value is a value. -/
theorem made_of_entryAt {base index container key v : Expr} (hcontainer : d.Made container)
    (h : Expr.entryAt base index container key = .ok v) : d.Made v := by
  unfold Expr.entryAt at h
  split at h
  · split at h
    · rename_i entries value hfound
      obtain rfl := Except.ok.inj h
      obtain ⟨candidate, hmem, _⟩ := exists_of_findValue? hfound
      exact ((Expr.forall_children_dictionary.mp (Expr.everywhere_iff.mp hcontainer).2) _ hmem).2
    · cases h
  · cases h

/-- What a loop over a value visits are values. -/
theorem made_of_items? {e : Expr} {items : List Expr} (he : d.Made e) (h : e.items? = some items) :
    ∀ item ∈ items, d.Made item := by
  have hparts := (Expr.everywhere_iff.mp he).2
  cases e with
  | array mark entries =>
    obtain rfl := Option.some.inj h
    exact hparts
  | dictionary mark entries =>
    obtain rfl := Option.some.inj h
    intro item hitem
    obtain ⟨entry, hentry, rfl⟩ := List.mem_map.mp hitem
    exact (Expr.forall_children_dictionary.mp hparts entry hentry).1
  | _ => cases h

/-- Expressions agree under environments that do, and have values. -/
theorem agree_replace (hd : d.Lawful) {env env' : Env} (henv : d.EnvAgree env env') {e : Expr} (he : d.Written e) :
    d.Agree d.Made (e.replace env) (e.replace env') := by
  induction e using Expr.children_induction with
  | h e ih =>
    have hpart : ∀ part ∈ e.children, d.Agree d.Made (part.replace env) (part.replace env') :=
      fun part hmem => ih part hmem (he.part hmem)
    cases e with
    | integer | text | boolean | memory | alwaysTrue | alwaysFalse => exact Run.agree_pure (hd.made_leaf trivial rfl)
    | functionRef mark name =>
      exact Run.agree_pure (Expr.everywhere_of_children_nil rfl (hd.made_reference he.root))
    | var mark name => exact henv.resolve name mark.span
    | indexed mark base index =>
      simp only [Expr.replace]
      refine (hpart base (by simp [Expr.children])).bind fun container hcontainer => ?_
      refine (agree_ifValue (hpart index (by simp [Expr.children]))).bind fun key _ => ?_
      exact Run.agree_ofExcept fun v hv => made_of_entryAt hcontainer hv
    | array mark entries =>
      simp only [Expr.replace]
      refine (agree_evaluateAll hpart).bind fun values hvalues => Run.agree_pure ?_
      exact hd.made trivial hvalues
    | dictionary mark entries =>
      simp only [Expr.replace]
      refine (agree_evaluateEntries (Expr.forall_children_dictionary.mp hpart) (List.forall_mem_nil _) .nil).bind
        fun values hvalues => Run.agree_pure ?_
      exact hd.made hvalues.2 (Expr.forall_children_dictionary.mpr hvalues.1)
    | arithmetic mark op left right =>
      simp only [Expr.replace]
      refine (hpart left (by simp [Expr.children])).bind fun left' hleft => ?_
      refine (hpart right (by simp [Expr.children])).bind fun right' hright => ?_
      exact Run.agree_ofExcept fun v hv => hd.made_arithmetic hleft hright hv
    | comparison mark op left right =>
      simp only [Expr.replace]
      refine (hpart left (by simp [Expr.children])).bind fun left' hleft => ?_
      refine (hpart right (by simp [Expr.children])).bind fun right' hright => ?_
      exact Run.agree_ofExcept fun v hv => hd.made_comparison hleft hright hv
    | logical mark op left? right =>
      simp only [Expr.replace]
      have hoption : d.Agree d.MadeOption (Expr.replaceOption env left?) (Expr.replaceOption env' left?) := by
        cases left? with
        | none => exact Run.agree_pure madeOption_none
        | some left =>
          exact (hpart left (by simp [Expr.children])).bind fun left' hleft => Run.agree_pure (madeOption_some hleft)
      refine hoption.bind fun left' hleft => (hpart right (by simp [Expr.children])).bind fun right' hright => ?_
      exact Run.agree_ofExcept fun v hv => hd.made_folded hleft hright hv
    | call mark name args =>
      simp only [Expr.replace]
      refine (agree_evaluateAll hpart).bind fun values hvalues => ?_
      refine (henv.call name values mark.span hvalues).bind fun result hresult => ?_
      refine Run.agree_ofExcept fun v hv => ?_
      cases result with
      | none => cases hv
      | some value =>
        obtain rfl := Except.ok.inj hv
        exact hresult value rfl
    | returned mark value =>
      simp only [Expr.replace]
      refine (hpart value (by simp [Expr.children])).bind fun value' hvalue => Run.agree_pure ?_
      exact Expr.everywhere_iff.mpr ⟨hd.made_returned he.root, by simpa [Expr.children] using hvalue⟩
    | modified mark modifier condition =>
      simp only [Expr.replace]
      refine (hpart condition (by simp [Expr.children])).bind fun condition' hcondition => Run.agree_pure ?_
      exact hd.made trivial (by simpa [Expr.children] using hcondition)
    | tally mark target entries =>
      simp only [Expr.replace]
      refine (agree_replaceAll hpart).bind fun values hvalues => Run.agree_pure ?_
      exact hd.made trivial hvalues
    | presence mark name display value =>
      simp only [Expr.replace]
      refine (hpart value (by simp [Expr.children])).bind fun value' hvalue => Run.agree_pure ?_
      exact hd.made trivial (by simpa [Expr.children] using hvalue)

/-- A tree that may be written is evaluated alike in environments that agree. -/
theorem agree_evaluate (hd : d.Lawful) {env env' : Env} (henv : d.EnvAgree env env') {e : Expr} (he : d.Written e) :
    d.Agree d.Made (e.evaluate env) (e.evaluate env') :=
  agree_ifValue (agree_replace hd henv he)

/-- The test of a condition agrees too. -/
theorem agree_isTrue (hd : d.Lawful) {env env' : Env} (henv : d.EnvAgree env env') {e : Expr} (he : d.Written e) :
    d.Agree (fun _ => True) (e.isTrue env) (e.isTrue env') := by
  induction e using Expr.children_induction with
  | h e ih =>
    have hpart : ∀ part ∈ e.children, d.Agree (fun _ => True) (part.isTrue env) (part.isTrue env') :=
      fun part hmem => ih part hmem (he.part hmem)
    cases e with
    | logical mark op left? right =>
      have hright := hpart right (by simp [Expr.children])
      cases op with
      | not =>
        simp only [Expr.isTrue]
        exact hright.bind fun _ _ => Run.agree_pure trivial
      | and =>
        cases left? with
        | none => exact Run.agree_fail _
        | some left =>
          simp only [Expr.isTrue]
          refine (hpart left (by simp [Expr.children])).bind fun truth _ => ?_
          cases truth with
          | true => exact hright
          | false => exact Run.agree_pure trivial
      | or =>
        cases left? with
        | none => exact Run.agree_fail _
        | some left =>
          simp only [Expr.isTrue]
          refine (hpart left (by simp [Expr.children])).bind fun truth _ => ?_
          cases truth with
          | true => exact Run.agree_pure trivial
          | false => exact hright
    | boolean | alwaysTrue | alwaysFalse => exact Run.agree_pure trivial
    | _ =>
      simp only [Expr.isTrue]
      refine (agree_replace hd henv he).bind fun value _ => ?_
      cases value.constantTruth? with
      | some truth => exact Run.agree_pure trivial
      | none => exact Run.agree_fail _

end Discipline

end TriggerScript
