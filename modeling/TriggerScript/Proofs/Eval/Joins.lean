import TriggerScript.Proofs.Eval.Comparison
import TriggerScript.Proofs.Eval.Defaults
import TriggerScript.Proofs.Eval.Spelling
import TriggerScript.Proofs.Number
import TriggerScript.Proofs.Lowering.Splitting

/-!
# Functions that join collections, and operators

Joining the items of a collection does what writing an operator between them does, up to marks: the same tree comes out, or
both overflow. Where no item may be true, the items are inverted first. A function that the items go through can be applied
beforehand.
-/

namespace TriggerScript

/-- A first item and others after it with an operator between them, grouped from the left; marks are arbitrary. -/
inductive Chained (node : Mark → Expr → Expr → Expr) (first : Expr) : List Expr → Expr → Prop where
  | single : Chained node first [] first
  | next {rest : List Expr} {written : Expr} (h : Chained node first rest written) (mark : Mark) (item : Expr) :
    Chained node first (rest ++ [item]) (node mark written item)

/-- Whether adding up the integers that a list begins with, one after the other, ever leaves 64 bits. -/
def overflows (total : Int) : List Expr → Bool
  | .integer _ value :: items =>
    (int64? (total + value.toInt)).isNone || overflows (total + value.toInt) items
  | _ => false

/-- Two computations give the same tree up to marks, or both overflow. -/
inductive EndAlike : Except Error Expr → Except Error Expr → Prop where
  | ok {v v' : Expr} (h : v.bare = v'.bare) : EndAlike (.ok v) (.ok v')
  | overflow (span : Span) (cause : Expr) (span' : Span) (cause' : Expr) :
    EndAlike (.error (.causedBy .overflow span cause)) (.error (.causedBy .overflow span' cause'))

namespace Joiner

/-- The items that can be joined. -/
def accepts : Joiner → Expr → Bool
  | .sumOf, item => item.isNumeric
  | _, item => item.isCondition

/-- What stands for an item in what is joined. -/
def prepared : Joiner → Expr → Expr
  | .noneOf, item => item.invert
  | _, item => item

/-- The operator that stands between two items. -/
def operate (joiner : Joiner) (mark : Mark) (left right : Expr) : Expr :=
  match joiner with
  | .allOf | .noneOf => .logical mark .and (some left) right
  | .anyOf => .logical mark .or (some left) right
  | .sumOf => .arithmetic mark .add left right

/-- What the operator makes of evaluated operands. -/
def fold (joiner : Joiner) (whole left right : Expr) : Except Error Expr :=
  match joiner with
  | .allOf | .noneOf => Fold.logical whole .and (some left) right
  | .anyOf => Fold.logical whole .or (some left) right
  | .sumOf => Fold.arithmetic whole .add left right

/-- Items joined one after the other to what is joined already. -/
def joinFrom (joiner : Joiner) (joined : Expr) (items : List Expr) : Except Error Expr :=
  items.foldlM (fun joined item => joiner.combine joined item.asUnit) joined

/-- Items joined from the left. -/
def joinAll (joiner : Joiner) (first : Expr) (rest : List Expr) : Except Error Expr :=
  joiner.joinFrom first.asUnit rest

variable {joiner : Joiner} {whole left left' right right' : Expr}

/-! ## One more item -/

theorem accepts_bare (joiner : Joiner) (item : Expr) : joiner.accepts item.bare = joiner.accepts item := by
  cases joiner with
  | sumOf => exact Expr.isNumeric_bare item
  | allOf | anyOf | noneOf => cases item <;> rfl

theorem accepts_asUnit (joiner : Joiner) (item : Expr) : joiner.accepts item.asUnit = joiner.accepts item := by
  rw [← accepts_bare, Expr.bare_asUnit, accepts_bare]

/-- What differs from a condition only in marks is an operand of a connective. -/
theorem isOperand_of_bare_eq (h : left.isCondition = true) (hbare : left.bare = left'.bare) : left'.isOperand = true := by
  rw [← Expr.isOperand_bare, ← hbare, Expr.isOperand_bare]
  exact Expr.isOperand_of_isCondition h

/-- Conditions are joined alike if they differ only in marks. -/
theorem bare_connect {absorbing : Bool} {decided decided' joined joined' : Expr} (hleft : left.bare = left'.bare)
    (hright : right.bare = right'.bare) (hdecided : decided.bare = decided'.bare) (hjoined : joined.bare = joined'.bare) :
    (Fold.connect absorbing decided joined left right).bare =
      (Fold.connect absorbing decided' joined' left' right').bare := by
  have htruth : left.truth? = left'.truth? := by rw [← Expr.truth?_bare, hleft, Expr.truth?_bare]
  have htruth' : right.truth? = right'.truth? := by rw [← Expr.truth?_bare, hright, Expr.truth?_bare]
  unfold Fold.connect
  rw [htruth, htruth']
  split
  · split <;> assumption
  · split <;> assumption
  · split <;> assumption
  · exact hjoined

/-- Joining two conditions is what their connective does. -/
theorem endAlike_connect {op : LogicalOp} (hop : op ≠ .not) (hleft : left.isCondition = true)
    (hright : right.isCondition = true) (hbare : left.bare = left'.bare) (hbare' : right.bare = right'.bare) :
    EndAlike (.ok (connect op left right)) (Fold.logical whole op (some left') right') := by
  have hlogical : Fold.logical whole op (some left') right' =
      .ok (Fold.connect (op = .or) (.boolean whole.mark (op = .or)) (.logical whole.mark op (some left') right') left'
        right') := by
    unfold Fold.logical
    dsimp only
    rw [Fold.checkOperand_of_isOperand (isOperand_of_bare_eq hleft hbare),
      Fold.checkOperand_of_isOperand (isOperand_of_bare_eq hright hbare')]
    cases op with
    | not => exact absurd rfl hop
    | and | or => rfl
  rw [hlogical]
  refine .ok (bare_connect hbare hbare' rfl ?_)
  rw [Expr.bare, Expr.bare, Expr.bareOption, Expr.bareOption, hbare, hbare']

/-- A sum with memory in it stays. -/
theorem add_of_readsMemory (h : left.readsMemory = true ∨ right.readsMemory = true) :
    add left right = .ok (.arithmetic { span := left.span } .add left right) := by
  unfold add
  split
  · rcases h with h | h <;> cases h
  · rfl

/-- What differs from an integer only in marks is this integer. -/
theorem eq_integer_of_bare_eq {mark : Mark} {a : Int64} {e : Expr} (h : (Expr.integer mark a).bare = e.bare) :
    ∃ mark', e = .integer mark' a := by
  cases e with
  | integer mark' a' =>
    obtain ⟨_, rfl⟩ := Expr.integer.inj h
    exact ⟨mark', rfl⟩
  | _ => cases h

/-- Adding two numbers is what the operator does. -/
theorem endAlike_add (hleft : left.isNumeric = true) (hright : right.isNumeric = true) (hbare : left.bare = left'.bare)
    (hbare' : right.bare = right'.bare) : EndAlike (add left right) (Fold.arithmetic whole .add left' right') := by
  rcases Expr.readsMemory_or_integers hleft hright with hreads | ⟨mark, a, mark', b, rfl, rfl⟩
  · rw [← Expr.isNumeric_bare, hbare, Expr.isNumeric_bare] at hleft
    rw [← Expr.isNumeric_bare, hbare', Expr.isNumeric_bare] at hright
    have hreads' : left'.readsMemory = true ∨ right'.readsMemory = true := by
      rwa [← Expr.readsMemory_bare, ← Expr.readsMemory_bare right', ← hbare, ← hbare', Expr.readsMemory_bare,
        Expr.readsMemory_bare]
    rw [add_of_readsMemory hreads, Fold.arithmetic_of_readsMemory hreads' hleft hright]
    refine .ok ?_
    rw [Expr.bare, Expr.bare, hbare, hbare']
  · obtain ⟨_, rfl⟩ := eq_integer_of_bare_eq hbare
    obtain ⟨_, rfl⟩ := eq_integer_of_bare_eq hbare'
    rw [add, Fold.arithmetic, if_neg (by simp), Fold.integers]
    cases int64? (a.toInt + b.toInt) with
    | none => exact .overflow ..
    | some sum => exact .ok rfl

/-- One more item is joined as the operator does it. -/
theorem endAlike_combine (hleft : joiner.accepts left = true) (hright : joiner.accepts right = true)
    (hbare : left.bare = left'.bare) (hbare' : right.bare = right'.bare) (whole : Expr) :
    EndAlike (joiner.combine left right) (joiner.fold whole left' right') := by
  cases joiner with
  | allOf | anyOf | noneOf => exact endAlike_connect (by decide) hleft hright hbare hbare'
  | sumOf => exact endAlike_add hleft hright hbare hbare'

/-- Two conditions are joined to a condition. -/
theorem isCondition_connect {op : LogicalOp} (hleft : left.isCondition = true) (hright : right.isCondition = true) :
    (connect op left right).isCondition = true := by
  unfold connect
  rcases Fold.connect_cases (op = .or) (.boolean { span := left.span } (op = .or))
    (.logical { span := left.span } op (some left) right) left right with
    ⟨_, heq⟩ | ⟨_, heq⟩ | ⟨_, heq⟩ | ⟨_, _, heq⟩
  · rw [heq]
    rfl
  · rwa [heq]
  · rwa [heq]
  · rw [heq]
    rfl

/-- Two numbers are added up to a number. -/
theorem isNumeric_add {v : Expr} (hleft : left.isNumeric = true) (hright : right.isNumeric = true)
    (h : add left right = .ok v) : v.isNumeric = true := by
  rcases Expr.readsMemory_or_integers hleft hright with hreads | ⟨mark, a, mark', b, rfl, rfl⟩
  · rw [add_of_readsMemory hreads] at h
    obtain rfl := Except.ok.inj h
    exact Bool.or_eq_true_iff.mpr hreads
  · rw [add] at h
    split at h
    · obtain rfl := Except.ok.inj h
      rfl
    · cases h

/-- What is joined can be joined again. -/
theorem accepts_combine {v : Expr} (hleft : joiner.accepts left = true) (hright : joiner.accepts right = true)
    (h : joiner.combine left right = .ok v) : joiner.accepts v = true := by
  cases joiner with
  | allOf | anyOf | noneOf =>
    obtain rfl := Except.ok.inj h
    exact isCondition_connect hleft hright
  | sumOf => exact isNumeric_add hleft hright h

/-! ## All items -/

section Items

variable {first written : Expr} {rest : List Expr}

theorem joinAll_concat (joiner : Joiner) (first : Expr) (rest : List Expr) (item : Expr) :
    joiner.joinAll first (rest ++ [item]) = joiner.joinAll first rest >>= (joiner.combine · item.asUnit) := by
  simp [joinAll, joinFrom]

theorem joinFrom_cons (joiner : Joiner) (joined item : Expr) (items : List Expr) :
    joiner.joinFrom joined (item :: items) = joiner.combine joined item.asUnit >>= (joiner.joinFrom · items) :=
  List.foldlM_cons

/-- All items joined can be joined again. -/
theorem accepts_joinAll {v : Expr} (hitems : ∀ item ∈ first :: rest, joiner.accepts item = true)
    (h : joiner.joinAll first rest = .ok v) : joiner.accepts v = true := by
  rw [List.forall_mem_cons, ← accepts_asUnit] at hitems
  refine foldlM_induction (motive := fun joined => joiner.accepts joined = true) ?_ h hitems.1
  intro item hitem joined joined' hjoined hcombine
  exact accepts_combine hjoined ((accepts_asUnit joiner item).trans (hitems.2 item hitem)) hcombine

/-- An operator is evaluated by its operands. -/
theorem evaluate_operate {env : Env} {result : Except Error Expr} (mark : Mark) (hvalue : left.isValue = true)
    (hleft : left.evaluate env = Run.ofExcept result) (hright : right.IsNormal) :
    (joiner.operate mark left right).evaluate env =
      Run.ofExcept (result >>= (joiner.fold (joiner.operate mark left right) · right)) := by
  rw [Expr.evaluate, Expr.ifValue_of_isValue hvalue] at hleft
  cases joiner with
  | allOf | anyOf | noneOf =>
    rw [Expr.evaluate, Expr.ifValue_of_isValue rfl, operate, Expr.replace, Expr.replaceOption, hleft,
      Expr.replace_of_isNormal hright]
    cases result <;> rfl
  | sumOf =>
    rw [Expr.evaluate, Expr.ifValue_of_isValue rfl, operate, Expr.replace, hleft, Expr.replace_of_isNormal hright]
    cases result <;> rfl

/-- Items with an operator between them are a value. -/
theorem isValue_of_chained (h : Chained joiner.operate first rest written) (hfirst : first.isValue = true) :
    written.isValue = true := by
  cases h with
  | single => exact hfirst
  | next => cases joiner <;> rfl

/-- Joining items is evaluating them with the operator between them. -/
theorem endAlike_joinAll (hwritten : Chained joiner.operate first rest written) (env : Env)
    (hitems : ∀ item ∈ first :: rest, item.IsNormal ∧ joiner.accepts item = true) :
    ∃ result, written.evaluate env = Run.ofExcept result ∧ EndAlike (joiner.joinAll first rest) result := by
  induction hwritten with
  | single =>
    obtain ⟨hfirst, _⟩ := hitems first List.mem_cons_self
    exact ⟨.ok first, Expr.evaluate_of_isNormal hfirst, .ok (Expr.bare_asUnit first)⟩
  | @next rest written h mark item ih =>
    rw [← List.cons_append, List.forall_mem_append, List.forall_mem_singleton] at hitems
    obtain ⟨hbefore, hnormal, hitem⟩ := hitems
    obtain ⟨result, hresult, halike⟩ := ih hbefore
    have hvalue := isValue_of_chained h (hbefore first List.mem_cons_self).1.isValue
    refine ⟨_, evaluate_operate mark hvalue hresult hnormal, ?_⟩
    have haccepts : ∀ v, joiner.joinAll first rest = .ok v → joiner.accepts v = true :=
      fun v => accepts_joinAll fun item hmem => (hbefore item hmem).2
    rw [joinAll_concat]
    generalize joiner.joinAll first rest = joined at halike haccepts ⊢
    cases halike with
    | @ok v v' hbare =>
      exact endAlike_combine (haccepts v rfl) ((accepts_asUnit joiner item).trans hitem) hbare
        (Expr.bare_asUnit item) _
    | overflow => exact .overflow ..

/-- Conditions can always be joined. -/
theorem exists_joinAll_eq_ok (hjoiner : joiner ≠ .sumOf) (first : Expr) (rest : List Expr) :
    ∃ v, joiner.joinAll first rest = .ok v := by
  refine exists_foldlM_eq_ok (motive := fun _ => True) (fun joined item _ => ?_) trivial rest
  cases joiner with
  | sumOf => exact absurd rfl hjoiner
  | allOf | anyOf | noneOf => exact ⟨_, rfl, trivial⟩

/-- A sum that is no integer grows without an error. -/
theorem isOk_sum_of_ne {joined : Expr} (h : ∀ mark a, joined ≠ .integer mark a) (rest : List Expr) :
    (Joiner.sumOf.joinFrom joined rest).isOk = true := by
  obtain ⟨v, hv⟩ : ∃ v, Joiner.sumOf.joinFrom joined rest = .ok v := by
    refine exists_foldlM_eq_ok (motive := fun joined => ∀ mark a, joined ≠ .integer mark a) ?_ h rest
    intro joined item hjoined
    refine ⟨.arithmetic { span := joined.span } .add joined item.asUnit, ?_, fun _ _ heq => by cases heq⟩
    cases joined with
    | integer mark a => exact absurd rfl (hjoined mark a)
    | _ => rfl
  rw [hv]
  rfl

/-- A sum that is an integer so far fails exactly if the integers after it overflow. -/
theorem isOk_sum (mark : Mark) (a : Int64) (rest : List Expr) :
    (Joiner.sumOf.joinFrom (.integer mark a) rest).isOk = !overflows a.toInt rest := by
  induction rest generalizing mark a with
  | nil => rfl
  | cons item rest ih =>
    rw [joinFrom_cons]
    cases item with
    | integer mark' b =>
      rw [overflows, Joiner.combine, Expr.asUnit, Expr.withMark, add]
      cases hsum : int64? (a.toInt + b.toInt) with
      | none => rfl
      | some sum =>
        rw [← int64?_eq_some_iff.mp hsum]
        exact ih _ sum
    | _ => exact isOk_sum_of_ne (fun _ _ heq => by cases heq) rest

/-- Items are joined unless they are numbers that overflow. -/
theorem isOk_joinAll (joiner : Joiner) (first : Expr) (rest : List Expr) :
    (joiner.joinAll first rest).isOk = !(joiner = .sumOf && overflows 0 (first :: rest)) := by
  by_cases hjoiner : joiner = .sumOf
  · subst hjoiner
    cases first with
    | integer mark a =>
      have hfits : int64? (0 + a.toInt) = some a := int64?_eq_some_iff.mpr (Int.zero_add _).symm
      rw [overflows, hfits, Int.zero_add]
      exact isOk_sum _ a rest
    | _ => exact isOk_sum_of_ne (fun _ _ heq => by cases heq) rest
  · obtain ⟨v, hv⟩ := exists_joinAll_eq_ok hjoiner first rest
    rw [hv, decide_eq_false hjoiner]
    rfl

/-- Preparing numbers does nothing to them. -/
theorem isOk_joinAll_prepared (joiner : Joiner) (first : Expr) (rest : List Expr) :
    (joiner.joinAll (joiner.prepared first) (rest.map joiner.prepared)).isOk = false ↔
      joiner = .sumOf ∧ overflows 0 (first :: rest) = true := by
  rw [isOk_joinAll]
  cases joiner with
  | allOf | anyOf | noneOf => simp
  | sumOf =>
    have hsame : rest.map Joiner.sumOf.prepared = rest := List.map_id rest
    rw [hsame]
    simp [prepared]

end Items

/-! ## Calls -/

section Calls

variable {args : Arguments} {item value : Expr} {items : List Expr} {output output' : Output}

/-- What is joined so far after one more item. -/
def joinNext (joiner : Joiner) (args : Arguments) (joined? : Option Expr) (value : Expr) : Except Error Expr := do
  let next ← joiner.prepare args value
  match joined? with
  | none => return next.asUnit
  | some joined => joiner.combine joined next.asUnit

/-- Items are joined one by one, each after its function was applied to it. -/
theorem joinItems_cons (joiner : Joiner) (args : Arguments) (element : Expr → Eval Expr) (joined? : Option Expr)
    (item : Expr) (items : List Expr) :
    joiner.joinItems args element joined? (item :: items) = (do
      let joined ← joiner.joinNext args joined? (← element item)
      joiner.joinItems args element (some joined) items) := by
  rw [joinItems]
  refine bind_congr fun value => ?_
  unfold joinNext
  cases joiner.prepare args value with
  | error error => rfl
  | ok next => cases joined? <;> rfl

/-- An item is checked and, where no item may be true, inverted. -/
theorem prepare_eq_ok {next : Expr} :
    joiner.prepare args item = .ok next ↔ joiner.accepts item = true ∧ joiner.prepared item = next := by
  cases joiner with
  | allOf | anyOf | noneOf =>
    by_cases h : item.isCondition = true
    · have hcheck : args.checkCondition "element" item = .ok () := if_pos h
      rw [prepare, hcheck]
      exact ⟨fun heq => ⟨h, Except.ok.inj heq⟩, fun heq => congrArg Except.ok heq.2⟩
    · have hcheck : args.checkCondition "element" item = .error (args.kindError "element" "a condition" item) := if_neg h
      rw [prepare, hcheck]
      exact ⟨(fun heq => by cases heq), fun heq => absurd heq.1 h⟩
  | sumOf =>
    by_cases h : item.isNumeric = true
    · rw [prepare, if_pos h]
      exact ⟨fun heq => ⟨h, Except.ok.inj heq⟩, fun heq => congrArg Except.ok heq.2⟩
    · rw [prepare, if_neg h]
      exact ⟨(fun heq => by cases heq), fun heq => absurd heq.1 h⟩

/-- An item that can be joined is joined as prepared. -/
theorem joinNext_of_accepts (args : Arguments) (joined : Expr) (h : joiner.accepts item = true) :
    joiner.joinNext args (some joined) item = joiner.combine joined (joiner.prepared item).asUnit := by
  rw [joinNext, prepare_eq_ok.mpr ⟨h, rfl⟩]
  rfl

/-- Items that can be joined are joined from the left. -/
theorem joinItems_of_accepts (hitems : ∀ item ∈ items, joiner.accepts item = true) (joined : Expr) :
    joiner.joinItems args pure (some joined) items =
      Run.ofExcept (some <$> joiner.joinFrom joined (items.map joiner.prepared)) := by
  induction items generalizing joined with
  | nil => rfl
  | cons item items ih =>
    rw [List.forall_mem_cons] at hitems
    rw [joinItems_cons, pure_bind, joinNext_of_accepts args joined hitems.1, List.map_cons, joinFrom_cons]
    cases joiner.combine joined (joiner.prepared item).asUnit with
    | error error => rfl
    | ok joined => exact ih hitems.2 joined

/-- Items that can be joined, with no function to go through, are joined as prepared from the left. -/
theorem joinItems_first {first : Expr} {rest : List Expr} (hitems : ∀ item ∈ first :: rest, joiner.accepts item = true) :
    joiner.joinItems args pure none (first :: rest) =
      Run.ofExcept (some <$> joiner.joinAll (joiner.prepared first) (rest.map joiner.prepared)) := by
  rw [List.forall_mem_cons] at hitems
  have hfirst : joiner.joinNext args none first = .ok (joiner.prepared first).asUnit := by
    rw [joinNext, prepare_eq_ok.mpr ⟨hitems.1, rfl⟩]
    rfl
  rw [joinItems_cons, pure_bind, hfirst]
  exact joinItems_of_accepts hitems.2 _

/-- One more item is joined in the same way for other arguments of the call. -/
theorem joinNext_eq_ok {joined? : Option Expr} {joined : Expr} (args' : Arguments)
    (h : joiner.joinNext args joined? value = .ok joined) : joiner.joinNext args' joined? value = .ok joined := by
  unfold joinNext at h ⊢
  obtain ⟨next, hprepare, h⟩ := bind_eq_ok.mp h
  rw [prepare_eq_ok.mpr (prepare_eq_ok.mp hprepare)]
  exact h

/-- The items of a collection go through a function one after the other; joining what comes out ends in the same way. -/
theorem joinItems_eq_ok {apply : String → Expr → Eval (Option Expr)} {name : String} {result : Expr → Eval Expr}
    (hresult : ∀ {item value output output'}, apply name item output = (.ok (some value), output') →
      result item output = (.ok value, output')) {joined? joined?' : Option Expr}
    (h : joiner.joinItems args (join.element args apply (some name)) joined? items output = (.ok joined?', output')) :
    ∃ results, items.mapM result output = (.ok results, output') ∧
      ∀ args', joiner.joinItems args' pure joined? results = pure joined?' := by
  induction items generalizing joined? output with
  | nil =>
    obtain ⟨hjoined, rfl⟩ := Prod.mk.inj h
    obtain rfl := Except.ok.inj hjoined
    exact ⟨[], rfl, fun _ => rfl⟩
  | cons item items ih =>
    rw [joinItems_cons] at h
    obtain ⟨value, between, hvalue, h⟩ := Run.bind_eq_ok h
    obtain ⟨joined, _, hnext, h⟩ := Run.bind_eq_ok h
    obtain ⟨hjoin, rfl⟩ := Prod.mk.inj hnext
    obtain ⟨results, hresults, hjoined⟩ := ih h
    refine ⟨value :: results, ?_, fun args' => ?_⟩
    · obtain ⟨value?, between', happly, hvalue⟩ := Run.bind_eq_ok hvalue
      cases value? with
      | none => cases hvalue
      | some value' =>
        obtain ⟨heq, rfl⟩ := Prod.mk.inj hvalue
        obtain rfl := Except.ok.inj heq
        rw [List.mapM_cons, Run.bind_of_eq_ok (hresult happly), Run.bind_of_eq_ok hresults]
        rfl
    · rw [joinItems_cons, pure_bind, joinNext_eq_ok args' hjoin]
      exact hjoined args'

/-- A collection without a function is joined item by item. -/
theorem join_of_items? {inputs : Expr} (h : inputs.items? = some items) (function : String) (span : Span)
    (apply : String → Expr → Eval (Option Expr)) :
    joiner.join { function, values := [inputs], span } apply = (do
      let joined? ← joiner.joinItems { function, values := [inputs], span } pure none items
      return (joined?.getD (joiner.empty { span })).withMark { span, unit := true }) := by
  unfold join
  refine (pure_bind () _).trans ((pure_bind inputs _).trans ?_)
  rw [h]
  rfl

/-- Items that can be joined are joined as they are prepared. -/
theorem join_array {first : Expr} {rest : List Expr} (hitems : ∀ item ∈ first :: rest, joiner.accepts item = true)
    (mark : Mark) (function : String) (span : Span) (apply : String → Expr → Eval (Option Expr)) :
    joiner.join { function, values := [.array mark (first :: rest)], span } apply =
      Run.ofExcept (Expr.withMark { span, unit := true } <$>
        joiner.joinAll (joiner.prepared first) (rest.map joiner.prepared)) := by
  rw [join_of_items? rfl, joinItems_first hitems]
  cases joiner.joinAll (joiner.prepared first) (rest.map joiner.prepared) <;> rfl

/-- A collection whose items go through a function is joined if the function is one and gives every item a result. -/
theorem join_eq_ok {inputs predicate v : Expr} {function : String} {span : Span}
    {apply : String → Expr → Eval (Option Expr)}
    (h : joiner.join { function, values := [inputs, predicate], span } apply output = (.ok v, output')) :
    ∃ items mark name joined?, inputs.items? = some items ∧ predicate = .functionRef mark name ∧
      joiner.joinItems { function, values := [inputs, predicate], span }
        (join.element { function, values := [inputs, predicate], span } apply (some name)) none items output =
          (.ok joined?, output') ∧
      v = (joined?.getD (joiner.empty { span })).withMark { span, unit := true } := by
  unfold join at h
  obtain ⟨_, _, hcount, h⟩ := Run.bind_eq_ok h
  obtain ⟨_, rfl⟩ := Prod.mk.inj hcount
  obtain ⟨inputs', _, hget, h⟩ := Run.bind_eq_ok h
  obtain ⟨hinputs, rfl⟩ := Prod.mk.inj hget
  obtain rfl : inputs = inputs' := Except.ok.inj hinputs
  cases hitems : inputs.items? with
  | none =>
    rw [hitems] at h
    cases h
  | some items =>
    rw [hitems] at h
    cases predicate with
    | functionRef mark name =>
      obtain ⟨name?, _, hpredicate, h⟩ := Run.bind_eq_ok h
      obtain ⟨hname, rfl⟩ := Prod.mk.inj hpredicate
      obtain rfl : some name = name? := Except.ok.inj hname
      obtain ⟨joined?, _, hjoined, h⟩ := Run.bind_eq_ok h
      obtain ⟨hv, rfl⟩ := Prod.mk.inj h
      exact ⟨items, mark, name, joined?, rfl, rfl, hjoined, (Except.ok.inj hv).symm⟩
    | _ => cases h

end Calls

end Joiner

namespace Scope

variable {settings : Settings} {scope : Scope} {joiner : Joiner}

/-- What a function gives for an item of a collection, if it is called at a place. -/
def resultOn (settings : Settings) (scope : Scope) (name : String) (span : Span) (item : Expr) : Eval Expr := do
  Expr.resultOf name span (← ((scope.child (.iteration name)).envUnder settings).call name [item] span)

/-- If the script defines no function of this name, calling it joins the items of the argument. -/
theorem envUnder_call_join (hscope : scope.function? (Builtin.join joiner).name = none) (values : List Expr) (span : Span) :
    (scope.envUnder settings).call (Builtin.join joiner).name values span =
      some <$> joiner.join { function := (Builtin.join joiner).name, values, span }
        fun name item => ((scope.child (.iteration name)).envUnder settings).call name [item] span := by
  rw [envUnder_call, invoke, invokeWith, callee, calleeWithin_of_ofName? _ hscope (Builtin.ofName?_name _)]
  simp only [invokeOn_eq]
  rfl

/-- A call of a function that joins a collection joins the evaluated arguments. -/
theorem evaluate_call_join (hscope : scope.function? (Builtin.join joiner).name = none) (mark : Mark) (es : List Expr) :
    scope.evaluate settings (.call mark (Builtin.join joiner).name es) = (do
      let values ← Expr.evaluateAll (scope.envUnder settings) es
      joiner.join { function := (Builtin.join joiner).name, values, span := mark.span }
        fun name item => ((scope.child (.iteration name)).envUnder settings).call name [item] mark.span) := by
  rw [evaluate, Expr.evaluate, Expr.ifValue_of_isValue rfl, Expr.replace]
  refine bind_congr fun values => ?_
  rw [envUnder_call_join hscope]
  exact (bind_map_left _ _ _).trans (bind_pure _)

/-- A call on an array of evaluated items that can be joined. -/
theorem evaluate_join_array (hscope : scope.function? (Builtin.join joiner).name = none) {first : Expr} {rest : List Expr}
    (hitems : ∀ item ∈ first :: rest, item.IsNormal ∧ joiner.accepts item = true) (mark mark' : Mark) :
    scope.evaluate settings (.call mark (Builtin.join joiner).name [.array mark' (first :: rest)]) =
      Run.ofExcept (Expr.withMark { span := mark.span, unit := true } <$>
        joiner.joinAll (joiner.prepared first) (rest.map joiner.prepared)) := by
  have harray : (Expr.array mark' (first :: rest)).IsNormal :=
    Expr.everywhere_iff.mpr ⟨trivial, fun item hitem => (hitems item hitem).1⟩
  have hvalues : Expr.evaluateAll (scope.envUnder settings) [.array mark' (first :: rest)] =
      pure [.array mark' (first :: rest)] :=
    Expr.evaluateAll_of_forall (List.forall_mem_singleton.mpr ⟨rfl, Expr.replace_of_isNormal harray⟩)
  rw [evaluate_call_join hscope, hvalues, pure_bind]
  exact Joiner.join_array (fun item hitem => (hitems item hitem).2) mark' _ _ _

end Scope

/-! ## Items of which none may be true -/

namespace Expr

variable {e : Expr}

/-- An operand of a connective that is worked out is a condition. -/
theorem isCondition_of_isOperand (h : e.IsNormal) (hoperand : e.isOperand = true) : e.isCondition = true := by
  cases e with
  | var | indexed | call | returned => cases h.root
  | comparison | logical | modified | tally | boolean | alwaysTrue | alwaysFalse => rfl
  | _ => cases hoperand

/-- A value that is worked out joins conditions only. -/
theorem isWellJoined_of_isNormal (h : e.IsNormal) : e.isWellJoined = true := by
  fun_induction isWellJoined e with
  | case1 mark right ih => exact ih (h.part (by simp [children]))
  | case2 mark left right ihleft ihright | case3 mark left right ihleft ihright =>
    exact Bool.and_eq_true_iff.mpr ⟨ihleft (h.part (by simp [children])), ihright (h.part (by simp [children]))⟩
  | case4 mark op left right hnot hand hor =>
    cases left with
    | none =>
      cases op with
      | not => exact (hnot rfl rfl).elim
      | and | or => cases h.root
    | some left =>
      cases op with
      | not => cases h.root
      | and => exact (hand left rfl rfl).elim
      | or => exact (hor left rfl rfl).elim
  | case5 => rfl

/-- Inverting a condition turns its truth in a state over. -/
theorem truthIn?_invert (m : MemoryState) (h : e.isWellJoined = true) : e.invert.truthIn? m = (e.truthIn? m).map (!·) := by
  fun_induction invert e with
  | case2 mark left right ihl ihr | case3 mark left right ihl ihr =>
    obtain ⟨hl, hr⟩ := isWellJoined_of_some h
    rw [truthIn?, truthIn?, ihl hl, ihr hr]
    cases left.truthIn? m <;> cases right.truthIn? m <;> simp
  | case4 mark left right =>
    obtain ⟨rfl, _⟩ := isWellJoined_of_not h
    rw [truthIn?]
    cases right.truthIn? m <;> simp
  | case1 mark op left right => exact truthIn_invert m (e := .comparison mark op left right) rfl
  | case5 mark value => rfl
  | case6 mark | case7 mark => rfl
  | case8 e =>
    rw [negate, truthIn?]
    cases e.truthIn? m <;> rfl

/-- A truth of conditions that is that of constants and does not depend on marks. -/
structure IsTruth (ν : Expr → Bool) : Prop extends RespectsNegation ν where
  constant : ∀ mark value, ν (.boolean mark value) = value
  same : ∀ e e', e.same e' = true → ν e = ν e'

/-- A property that conjunctions have if both sides do, of constants the true one only, and whatever the marks. -/
structure ReadsConjunctions (holds : Expr → Prop) : Prop where
  withMark : ∀ mark e, holds (e.withMark mark) ↔ holds e
  constant : ∀ mark value, holds (.boolean mark value) ↔ value = true
  both : ∀ mark left right, holds (.logical mark .and (some left) right) ↔ holds left ∧ holds right

/-- The truth in a memory state reads conjunctions as such. -/
theorem readsConjunctions_truthIn? (m : MemoryState) : ReadsConjunctions fun e => e.truthIn? m = some true where
  withMark mark e := by rw [← truthIn?_bare, bare_withMark, truthIn?_bare]
  constant mark value := by rw [truthIn?, Option.some.injEq]
  both mark left right := by
    rw [truthIn?]
    cases left.truthIn? m <;> cases right.truthIn? m <;> simp

theorem holdsUnder_withMark {ν : Expr → Bool} (hν : IsTruth ν) (mark : Mark) (e : Expr) :
    (e.withMark mark).holdsUnder ν = e.holdsUnder ν := by
  have hleaf : ν (e.withMark mark) = ν e := hν.same _ _ (same_iff.mpr (bare_withMark mark e))
  cases e with
  | logical mark' op left? right =>
    cases left? with
    | none =>
      cases op with
      | not => rfl
      | and | or => exact hleaf
    | some left =>
      cases op with
      | not => exact hleaf
      | and | or => rfl
  | _ => exact hleaf

/-- The value under a truth of leaves reads conjunctions as such. -/
theorem readsConjunctions_holdsUnder {ν : Expr → Bool} (hν : IsTruth ν) :
    ReadsConjunctions fun e => e.holdsUnder ν = true where
  withMark mark e := by rw [holdsUnder_withMark hν]
  constant mark value := Bool.eq_iff_iff.mp (hν.constant mark value)
  both mark left right := Bool.and_eq_true_iff

namespace ReadsConjunctions

variable {holds : Expr → Prop} (h : ReadsConjunctions holds) {left right : Expr}
include h

/-- A condition of fixed truth holds if it is true. -/
theorem of_truth? {value : Bool} (htruth : e.truth? = some value) : holds e ↔ value = true := by
  obtain ⟨mark, rfl⟩ := eq_boolean_of_truth? htruth
  exact h.constant mark value

/-- Conditions joined by a conjunction hold if both do. -/
theorem connect : holds (Joiner.connect .and left right) ↔ holds left ∧ holds right := by
  unfold Joiner.connect
  rcases Fold.connect_cases (LogicalOp.and = .or) (.boolean { span := left.span } (LogicalOp.and = .or))
    (.logical { span := left.span } .and (some left) right) left right with
    ⟨htruth, heq⟩ | ⟨htruth, heq⟩ | ⟨htruth, heq⟩ | ⟨_, _, heq⟩
  · rw [heq, h.constant]
    rcases htruth with htruth | htruth
    · simp [h.of_truth? htruth]
    · simp [h.of_truth? htruth]
  · rw [heq, h.of_truth? htruth]
    simp
  · rw [heq, h.of_truth? htruth]
    simp
  · rw [heq, h.both]

/-- What is joined by conjunctions holds if everything in it does. -/
theorem joinFrom {joined v : Expr} {items : List Expr} (hv : Joiner.noneOf.joinFrom joined items = .ok v) :
    holds v ↔ holds joined ∧ ∀ item ∈ items, holds item := by
  induction items generalizing joined with
  | nil =>
    obtain rfl := Except.ok.inj hv
    simp
  | cons item items ih =>
    rw [Joiner.joinFrom_cons] at hv
    rw [ih hv, h.connect, asUnit, h.withMark, List.forall_mem_cons, and_assoc]

/-- What is joined holds exactly if every item does. -/
theorem joinAll {first v : Expr} {rest : List Expr} (hv : Joiner.noneOf.joinAll first rest = .ok v) :
    holds v ↔ ∀ item ∈ first :: rest, holds item := by
  rw [h.joinFrom hv, asUnit, h.withMark, List.forall_mem_cons]

end ReadsConjunctions

end Expr

/-- What stands for an evaluated item is evaluated and can be joined. -/
theorem Joiner.isNormal_prepared (joiner : Joiner) {item : Expr} (h : item.IsNormal ∧ joiner.accepts item = true) :
    (joiner.prepared item).IsNormal ∧ joiner.accepts (joiner.prepared item) = true := by
  cases joiner with
  | allOf | anyOf | sumOf => exact h
  | noneOf =>
    obtain ⟨hnormal, hoperand, _⟩ := h.1.invert (Expr.isOperand_of_isCondition h.2)
    exact ⟨hnormal, Expr.isCondition_of_isOperand hnormal hoperand⟩

/-! ## Main statement -/

namespace Scope

variable {settings : Settings} {scope : Scope} {joiner : Joiner} {first : Expr} {rest : List Expr}

/-- Written out with operators, items evaluate as a call on the array of them does. -/
theorem evaluate_chained {written : Expr} (hscope : scope.function? (Builtin.join joiner).name = none)
    (hitems : ∀ item ∈ first :: rest, item.IsNormal ∧ joiner.accepts item = true)
    (hwritten : Chained joiner.operate (joiner.prepared first) (rest.map joiner.prepared) written) (mark mark' : Mark) :
    if joiner = .sumOf ∧ overflows 0 (first :: rest) = true then
      ∃ span cause span' cause',
        scope.evaluate settings (.call mark (Builtin.join joiner).name [.array mark' (first :: rest)]) =
          Run.fail (.causedBy .overflow span cause) ∧
        scope.evaluate settings written = Run.fail (.causedBy .overflow span' cause')
    else
      ∃ v v',
        scope.evaluate settings (.call mark (Builtin.join joiner).name [.array mark' (first :: rest)]) = pure v ∧
        scope.evaluate settings written = pure v' ∧ v.same v' = true := by
  have hprepared : ∀ item ∈ joiner.prepared first :: rest.map joiner.prepared,
      item.IsNormal ∧ joiner.accepts item = true := by
    rw [← List.map_cons, List.forall_mem_map]
    exact fun item hitem => joiner.isNormal_prepared (hitems item hitem)
  obtain ⟨result, hresult, halike⟩ := Joiner.endAlike_joinAll hwritten (scope.envUnder settings) hprepared
  have hok := joiner.isOk_joinAll_prepared first rest
  rw [evaluate_join_array hscope hitems]
  generalize joiner.joinAll (joiner.prepared first) (rest.map joiner.prepared) = joined at halike hok ⊢
  cases halike with
  | @ok v v' hbare =>
    rw [if_neg fun hoverflows => Bool.false_ne_true (hok.mpr hoverflows).symm]
    exact ⟨_, v', rfl, hresult, Expr.same_iff.mpr ((Expr.bare_withMark _ v).trans hbare)⟩
  | overflow span cause span' cause' =>
    rw [if_pos (hok.mp rfl)]
    exact ⟨span, cause, span', cause', rfl, hresult⟩

/-- That no item is true is evaluated as that all inverted items are. -/
theorem evaluate_noneOf (hnone : scope.function? (Builtin.join .noneOf).name = none)
    (hall : scope.function? (Builtin.join .allOf).name = none)
    (hitems : ∀ item ∈ first :: rest, item.IsNormal ∧ item.isCondition = true) (mark mark' : Mark) :
    scope.evaluate settings (.call mark "none_of" [.array mark' (first :: rest)]) =
      scope.evaluate settings (.call mark "all_of" [.array mark' ((first :: rest).map Expr.invert)]) := by
  have hinverted : ∀ item ∈ (first :: rest).map Expr.invert, item.IsNormal ∧ Joiner.allOf.accepts item = true := by
    rw [List.forall_mem_map]
    exact fun item hitem => Joiner.noneOf.isNormal_prepared (hitems item hitem)
  have hsame : (rest.map Expr.invert).map Joiner.allOf.prepared = rest.map Expr.invert := List.map_id _
  refine (evaluate_join_array hnone hitems mark mark').trans ?_
  refine Eq.trans ?_ (evaluate_join_array hall hinverted mark mark').symm
  rw [hsame]
  rfl

/-- That no item is true has a value, which is true exactly if every item is false. -/
theorem exists_noneOf_truth (hscope : scope.function? (Builtin.join .noneOf).name = none)
    (hitems : ∀ item ∈ first :: rest, item.IsNormal ∧ item.isCondition = true) (mark mark' : Mark) :
    ∃ v, scope.evaluate settings (.call mark "none_of" [.array mark' (first :: rest)]) = pure v ∧
      (∀ m, v.truthIn? m = some true ↔ ∀ item ∈ first :: rest, item.truthIn? m = some false) ∧
      ∀ ν, Expr.IsTruth ν → (v.holdsUnder ν = true ↔ ∀ item ∈ first :: rest, item.holdsUnder ν = false) := by
  obtain ⟨v, hv⟩ := Joiner.noneOf.exists_joinAll_eq_ok (by decide) first.invert (rest.map Expr.invert)
  have hjoined : ∀ {holds : Expr → Prop}, Expr.ReadsConjunctions holds →
      (holds (v.withMark { span := mark.span, unit := true }) ↔ ∀ item ∈ first :: rest, holds item.invert) := by
    intro holds hholds
    rw [hholds.withMark, hholds.joinAll hv, ← List.map_cons, List.forall_mem_map]
  have hjoins : ∀ item ∈ first :: rest, item.isWellJoined = true :=
    fun item hitem => Expr.isWellJoined_of_isNormal (hitems item hitem).1
  refine ⟨v.withMark { span := mark.span, unit := true }, ?_, fun m => ?_, fun ν hν => ?_⟩
  · refine (evaluate_join_array hscope hitems mark mark').trans ?_
    exact congrArg (fun joined => Run.ofExcept (Expr.withMark { span := mark.span, unit := true } <$> joined)) hv
  · rw [hjoined (Expr.readsConjunctions_truthIn? m)]
    refine forall₂_congr fun item hitem => ?_
    rw [Expr.truthIn?_invert m (hjoins item hitem)]
    cases item.truthIn? m <;> simp
  · rw [hjoined (Expr.readsConjunctions_holdsUnder hν)]
    refine forall₂_congr fun item hitem => ?_
    rw [Expr.holdsUnder_invert hν.toRespectsNegation (hjoins item hitem), Bool.not_eq_true']

/-- Two trees are evaluated to two values. -/
theorem evaluateAll_pair {env : Env} {e e' : Expr} {values : List Expr} {output output' : Output}
    (h : Expr.evaluateAll env [e, e'] output = (.ok values, output')) : ∃ v v', values = [v, v'] := by
  rw [Expr.evaluateAll_eq_mapM] at h
  have hlength : values.length = 2 := Run.length_of_mapM h
  rcases values with _ | ⟨v, _ | ⟨v', _ | ⟨_, _⟩⟩⟩
  · cases hlength
  · cases hlength
  · exact ⟨v, v', rfl⟩
  · cases hlength

/-- A call on a collection and a function that ends well is one on the array of the results. -/
theorem evaluate_join_results (hscope : scope.function? (Builtin.join joiner).name = none) {mark : Mark}
    {inputs predicate v : Expr} {output output' : Output}
    (h : scope.evaluate settings (.call mark (Builtin.join joiner).name [inputs, predicate]) output = (.ok v, output')) :
    ∃ collection items mark' name between results,
      Expr.evaluateAll (scope.envUnder settings) [inputs, predicate] output =
        (.ok [collection, .functionRef mark' name], between) ∧
      collection.items? = some items ∧
      items.mapM (scope.resultOn settings name mark.span) between = (.ok results, output') ∧
      ∀ mark' final, (scope.envUnder settings).call (Builtin.join joiner).name [.array mark' results] mark.span final =
        (.ok (some v), final) := by
  rw [evaluate_call_join hscope] at h
  obtain ⟨values, between, hvalues, h⟩ := Run.bind_eq_ok h
  obtain ⟨collection, predicate', rfl⟩ := evaluateAll_pair hvalues
  obtain ⟨items, mark', name, joined?, hitems, rfl, hjoined, rfl⟩ := Joiner.join_eq_ok h
  have hresult : ∀ {item value output output'},
      ((scope.child (.iteration name)).envUnder settings).call name [item] mark.span output =
        (.ok (some value), output') →
      scope.resultOn settings name mark.span item output = (.ok value, output') := by
    intro item value output output' hcall
    rw [resultOn, Run.bind_of_eq_ok hcall]
    rfl
  obtain ⟨results, hresults, hjoin⟩ := Joiner.joinItems_eq_ok hresult hjoined
  refine ⟨collection, items, mark', name, between, results, hvalues, hitems, hresults, fun mark' final => ?_⟩
  rw [envUnder_call_join hscope, Joiner.join_of_items? rfl, hjoin]
  rfl

/-- Functions that join collections agree with operators, where no function of a script hides their names. Writing the
operator between evaluated items evaluates to the same tree as a call on the array of them, up to marks, or both fail because
a sum of integers overflows. Where no item may be true, the call is that of `all_of` on the inverted items, and its value is
true exactly where every item is false. A call with a function that ends well ends as the call on the array of the function's
results does. -/
theorem joins_agree_with_operators (settings : Settings) (scope : Scope)
    (hscope : ∀ joiner : Joiner, scope.function? (Builtin.join joiner).name = none) :
    (∀ (joiner : Joiner) (first : Expr) (rest : List Expr) (written : Expr) (mark mark' : Mark),
      (∀ item ∈ first :: rest, item.IsNormal ∧ joiner.accepts item = true) →
      Chained joiner.operate (joiner.prepared first) (rest.map joiner.prepared) written →
      if joiner = .sumOf ∧ overflows 0 (first :: rest) = true then
        ∃ span cause span' cause',
          scope.evaluate settings (.call mark (Builtin.join joiner).name [.array mark' (first :: rest)]) =
            Run.fail (.causedBy .overflow span cause) ∧
          scope.evaluate settings written = Run.fail (.causedBy .overflow span' cause')
      else
        ∃ v v',
          scope.evaluate settings (.call mark (Builtin.join joiner).name [.array mark' (first :: rest)]) = pure v ∧
          scope.evaluate settings written = pure v' ∧ v.same v' = true) ∧
    (∀ (first : Expr) (rest : List Expr) (mark mark' : Mark),
      (∀ item ∈ first :: rest, item.IsNormal ∧ item.isCondition = true) →
      scope.evaluate settings (.call mark "none_of" [.array mark' (first :: rest)]) =
        scope.evaluate settings (.call mark "all_of" [.array mark' ((first :: rest).map Expr.invert)]) ∧
      ∃ v, scope.evaluate settings (.call mark "none_of" [.array mark' (first :: rest)]) = pure v ∧
        (∀ m, v.truthIn? m = some true ↔ ∀ item ∈ first :: rest, item.truthIn? m = some false) ∧
        ∀ ν, Expr.IsTruth ν → (v.holdsUnder ν = true ↔ ∀ item ∈ first :: rest, item.holdsUnder ν = false)) ∧
    ∀ (joiner : Joiner) (inputs predicate v : Expr) (mark : Mark) (output output' : Output),
      scope.evaluate settings (.call mark (Builtin.join joiner).name [inputs, predicate]) output = (.ok v, output') →
      ∃ collection items mark' name between results,
        Expr.evaluateAll (scope.envUnder settings) [inputs, predicate] output =
          (.ok [collection, .functionRef mark' name], between) ∧
        collection.items? = some items ∧
        items.mapM (scope.resultOn settings name mark.span) between = (.ok results, output') ∧
        ∀ mark' final,
          (scope.envUnder settings).call (Builtin.join joiner).name [.array mark' results] mark.span final =
            (.ok (some v), final) := by
  refine ⟨?_, ?_, ?_⟩
  · intro joiner first rest written mark mark' hitems hwritten
    exact evaluate_chained (hscope joiner) hitems hwritten mark mark'
  · intro first rest mark mark' hitems
    refine ⟨evaluate_noneOf (hscope .noneOf) (hscope .allOf) hitems mark mark', ?_⟩
    exact exists_noneOf_truth (hscope .noneOf) hitems mark mark'
  · intro joiner inputs predicate v mark output output' h
    exact evaluate_join_results (hscope joiner) h

/-- A condition on memory, a counted one, a fixed one and a constant. -/
def mixedConditions : List Expr :=
  [Expr.byteCompares 1 .equal 1, .modified {} (.repeated 3) (Expr.byteCompares 2 .less 5), .alwaysFalse {},
    .boolean {} false]

/-- A read of memory after two integers that cannot be added. -/
def overflowingNumbers : List Expr :=
  [.integer {} Int64.maxValue, .integer {} 1, .memory {} (.ofSize .byte 1)]

/-- The sum of the bytes at the keys of a dictionary. -/
def sumOverKeys : Expr :=
  .call {} "sum_of" [.dictionary {} [(.integer {} 1, .text {} "a"), (.integer {} 2, .text {} "b")], .var {} "byte"]

/-- Mixed conditions, numbers that overflow, and a sum over the keys of a dictionary. -/
theorem joins_agree_with_operators_samples :
    (∃ v v', Scope.global.evaluate {} (.call {} "any_of" [.array {} mixedConditions]) = pure v ∧
      Scope.global.evaluate {} (mixedConditions.tail.foldl (fun left => .logical {} .or (some left))
        (Expr.byteCompares 1 .equal 1)) = pure v' ∧ v.same v' = true) ∧
    (∃ span cause span' cause',
      Scope.global.evaluate {} (.call {} "sum_of" [.array {} overflowingNumbers]) =
        Run.fail (.causedBy .overflow span cause) ∧
      Scope.global.evaluate {} (overflowingNumbers.tail.foldl (.arithmetic {} .add) (.integer {} Int64.maxValue)) =
        Run.fail (.causedBy .overflow span' cause')) ∧
    (∃ v, Scope.global.evaluate {} (.call {} "none_of" [.array {} mixedConditions]) = pure v ∧
      ∀ ν, Expr.IsTruth ν → (v.holdsUnder ν = true ↔ ∀ item ∈ mixedConditions, item.holdsUnder ν = false)) ∧
    ∃ (v : Expr) (items results : List Expr) (name : String) (between output : Output),
      Scope.global.evaluate {} sumOverKeys {} = (.ok v, output) ∧
      v.render = "byte(0x000001) + byte(0x000002)" ∧
      items.mapM (Scope.global.resultOn {} name {}) between = (.ok results, output) ∧
      (Scope.global.envUnder {}).call "sum_of" [.array {} results] {} output = (.ok (some v), output) := by
  have hscope : ∀ joiner : Joiner, Scope.global.function? (Builtin.join joiner).name = none := fun _ => rfl
  obtain ⟨hoperators, hnone, hresults⟩ := joins_agree_with_operators {} Scope.global hscope
  have hconditions : ∀ item ∈ mixedConditions, item.IsNormal ∧ item.isCondition = true := by decide +kernel
  have hnumbers : ∀ item ∈ overflowingNumbers, item.IsNormal ∧ item.isNumeric = true := by decide +kernel
  refine ⟨?_, ?_, ?_, ?_⟩
  · exact hoperators .anyOf (Expr.byteCompares 1 .equal 1) mixedConditions.tail _ {} {} hconditions
      (((Chained.single.next {} _).next {} _).next {} _)
  · exact hoperators .sumOf (.integer {} Int64.maxValue) overflowingNumbers.tail _ {} {} hnumbers
      ((Chained.single.next {} _).next {} _)
  · obtain ⟨_, v, hv, _, htruth⟩ := hnone (Expr.byteCompares 1 .equal 1) mixedConditions.tail {} {} hconditions
    exact ⟨v, hv, htruth⟩
  · have hvalue : (Scope.global.evaluate {} sumOverKeys {}).1.toOption.map Expr.render =
        some "byte(0x000001) + byte(0x000002)" := by decide +kernel
    cases heval : Scope.global.evaluate {} sumOverKeys {} with
    | mk result output =>
      rw [heval] at hvalue
      cases result with
      | error error => cases hvalue
      | ok v =>
        obtain ⟨_, items, _, name, between, results, _, _, happlied, hcall⟩ := hresults .sumOf _ _ v {} {} output heval
        exact ⟨v, items, results, name, between, output, rfl, Option.some.inj hvalue, happlied, hcall {} output⟩

end Scope

end TriggerScript
