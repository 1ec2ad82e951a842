import TriggerScript.Proofs.Eval.Agreement
import TriggerScript.Proofs.Eval.Matching

/-!
# What built-in functions give

Every built-in function that gives a value has one statement here that says which value it is, in terms of its arguments.
From these it follows that built-in functions keep every discipline of evaluation: applied to values they give values, and
functions that join a collection agree if the functions that they apply do.
-/

namespace TriggerScript

/-- The results of a computation meet a condition. -/
def Gives {α : Type} (result : Except Error α) (post : α → Prop) : Prop :=
  ∀ a, result = .ok a → post a

section Steps

variable {α β : Type} {post : α → Prop} {post' : β → Prop}

theorem gives_ok {a : α} (h : post a) : Gives (.ok a) post := by
  intro a' ha
  obtain rfl := Except.ok.inj ha
  exact h

theorem gives_error (error : Error) : Gives (.error error) post := by
  intro a ha
  cases ha

theorem Gives.bind {result : Except Error α} {next : α → Except Error β} (h : Gives result post)
    (hnext : ∀ a, post a → Gives (next a) post') : Gives (result >>= next) post' := by
  intro b hb
  obtain ⟨a, ha, hb⟩ := bind_eq_ok.mp hb
  exact hnext a (h a ha) b hb

/-- A step whose result does not matter. -/
theorem Gives.skip {result : Except Error α} {next : α → Except Error β} (hnext : ∀ a, Gives (next a) post') :
    Gives (result >>= next) post' := by
  intro b hb
  obtain ⟨a, _, hb⟩ := bind_eq_ok.mp hb
  exact hnext a b hb

end Steps

/-- A list of at most one item is known by its first item. -/
theorem eq_singleton_of_getElem? {α : Type} {xs : List α} {x : α} (hlength : xs.length ≤ 1) (h : xs[0]? = some x) :
    xs = [x] := by
  rcases xs with _ | ⟨y, _ | ⟨z, xs⟩⟩
  · cases h
  · obtain rfl := Option.some.inj h
    rfl
  · simp at hlength

/-- A list of at most two items is known by its first two items. -/
theorem eq_pair_of_getElem? {α : Type} {xs : List α} {x y : α} (hlength : xs.length ≤ 2) (h : xs[0]? = some x)
    (h' : xs[1]? = some y) : xs = [x, y] := by
  rcases xs with _ | ⟨z, xs⟩
  · cases h
  · obtain rfl := Option.some.inj h
    rw [eq_singleton_of_getElem? (Nat.le_of_succ_le_succ hlength) h']

namespace Arguments

variable (args : Arguments)

/-! ## Arguments -/

/-- Checked arguments are neither too few nor too many. -/
theorem gives_expectBetween (least most : Nat) :
    Gives (args.expectBetween least most) fun _ => least ≤ args.values.length ∧ args.values.length ≤ most := by
  intro u hu
  obtain ⟨_, hleast, hmost⟩ := bind_eq_ok.mp hu
  unfold expectAtLeast at hleast
  split at hleast
  · cases hleast
  · split at hmost
    · cases hmost
    · exact ⟨by omega, by omega⟩

/-- An argument that is found stands at its index. -/
theorem gives_get (index : Nat) (name : String) :
    Gives (args.get index name) fun value => args.values[index]? = some value := by
  unfold get
  split
  · rename_i value hvalue
    exact gives_ok hvalue
  · exact gives_error _

/-- An integer argument is an integer that stands at its index. -/
theorem gives_integer (index : Nat) (name : String) :
    Gives (args.integer index name) fun value => ∃ mark, args.values[index]? = some (.integer mark value) := by
  refine (args.gives_get index name).bind fun value hvalue => ?_
  split
  · exact gives_ok ⟨_, hvalue⟩
  · exact gives_error _

/-- A condition that is found stands at its index and is a condition. -/
theorem gives_condition (index : Nat) (name : String) :
    Gives (args.condition index name) fun value => args.values[index]? = some value ∧ value.isCondition = true := by
  refine (args.gives_get index name).bind fun value hvalue => ?_
  unfold checkCondition
  split
  · rename_i hcondition
    exact gives_ok ⟨hvalue, hcondition⟩
  · exact gives_error _

/-! ## Reads -/

/-- An address is an integer argument that fits into 32 bits. -/
theorem gives_address (index : Nat) :
    Gives (args.address index) fun address =>
      ∃ mark value, args.values[index]? = some (.integer mark value) ∧ uint32? value.toInt = some address := by
  refine (args.gives_get index "address").bind fun value hvalue => ?_
  split
  · rename_i mark number
    split
    · rename_i address haddress
      exact gives_ok ⟨mark, number, hvalue, haddress⟩
    · exact gives_error _
  · exact gives_error _
  · exact gives_error _
  · exact gives_error _

/-- A read is made of one address. -/
theorem gives_readMemory (size : MemorySize) :
    Gives (args.readMemory size) fun v =>
      ∃ mark value address, args.values = [.integer mark value] ∧ uint32? value.toInt = some address ∧
        v = .memory args.mark (.ofSize size address) := by
  refine (args.gives_expectBetween 1 1).bind fun _ hlength => ?_
  refine (args.gives_address 0).bind fun address ⟨mark, value, hvalue, haddress⟩ => ?_
  exact gives_ok ⟨mark, value, address, eq_singleton_of_getElem? hlength.2 hvalue, haddress, rfl⟩

/-- A read of a bit is made of the index of the bit and an address. -/
theorem gives_readBit :
    Gives args.readBit fun v =>
      ∃ mark index size mark' value address, args.values = [.integer mark index, .integer mark' value] ∧
        MemorySize.bit? index.toInt = some size ∧ uint32? value.toInt = some address ∧
        v = .memory args.mark (.ofSize size address) := by
  refine (args.gives_expectBetween 2 2).bind fun _ hlength => ?_
  refine (args.gives_integer 0 "index").bind fun index ⟨mark, hindex⟩ => ?_
  split
  · rename_i size hsize
    refine (args.gives_address 1).bind fun address ⟨mark', value, hvalue, haddress⟩ => ?_
    have hvalues := eq_pair_of_getElem? hlength.2 hindex hvalue
    exact gives_ok ⟨mark, index, size, mark', value, address, hvalues, hsize, haddress, rfl⟩
  · exact gives_error _

/-- A mode is put on a read that has none. -/
theorem gives_withMode (mode : ReadMode) :
    Gives (args.withMode mode) fun v =>
      ∃ mark read, args.values = [.memory mark read] ∧ read.mode = .current ∧
        v = .memory args.mark { read with mode } := by
  refine (args.gives_expectBetween 1 1).bind fun _ hlength => (args.gives_get 0 "accessor").bind fun value hvalue => ?_
  split
  · rename_i mark read
    split
    · rename_i hmode
      exact gives_ok ⟨mark, read, eq_singleton_of_getElem? hlength.2 hvalue, hmode, rfl⟩
    · exact gives_error _
  · exact gives_error _

/-! ## Conditions -/

/-- A modifier is put on the first argument. -/
theorem gives_modify (modifier : Modifier) :
    Gives (args.modify modifier) fun v =>
      ∃ condition, args.values[0]? = some condition ∧ v = .modified args.mark modifier condition := by
  refine Gives.skip fun _ => (args.gives_condition 0 "condition").bind fun condition hcondition => ?_
  exact gives_ok ⟨condition, hcondition.1, rfl⟩

/-- A repeated condition is the second argument. -/
theorem gives_repeatCondition :
    Gives args.repeatCondition fun v =>
      ∃ count condition, args.values[1]? = some condition ∧ v = .modified args.mark (.repeated count) condition := by
  refine Gives.skip fun _ => Gives.skip fun count => ?_
  refine (args.gives_condition 1 "condition").bind fun condition hcondition => ?_
  exact gives_ok ⟨count, condition, hcondition.1, rfl⟩

/-- A tally is made of all arguments behind its target. -/
theorem gives_tallyConditions :
    Gives args.tallyConditions fun v => ∃ target, v = .tally args.mark target (tallyEntries args.values.tail) := by
  refine Gives.skip fun _ => Gives.skip fun target => Gives.skip fun _ => ?_
  split
  · exact gives_error _
  · exact gives_ok ⟨target, rfl⟩

/-- A constant condition takes no arguments. -/
theorem gives_constantCondition (condition : Expr) :
    Gives (args.constantCondition condition) fun v => v = condition ∧ args.values = [] := by
  refine (args.gives_expectBetween 0 0).bind fun _ hlength => gives_ok ⟨rfl, ?_⟩
  exact List.eq_nil_of_length_eq_zero (Nat.le_zero.mp hlength.2)

/-! ## Constants and named values -/

/-- A range is an array of integers. -/
theorem gives_rangeArray :
    Gives args.rangeArray fun v => ∃ values : List Int64, v = .array args.mark (values.map (.integer args.mark)) := by
  refine Gives.skip fun _ => Gives.skip fun start => Gives.skip fun stop => ?_
  have hstep : ∀ step : Int64, Gives
      (if step = 0 then throw (args.error .zeroStep)
        else pure (Expr.array args.mark ((rangeValues start stop step).map (.integer args.mark))))
      fun v => ∃ values : List Int64, v = .array args.mark (values.map (.integer args.mark)) := by
    intro step
    split
    · exact gives_error _
    · exact gives_ok ⟨_, rfl⟩
  split
  · exact Gives.skip hstep
  · exact hstep 1

/-- A length is an integer. -/
theorem gives_lengthOf : Gives args.lengthOf fun v => ∃ count, v = .integer args.mark count := by
  refine Gives.skip fun _ => Gives.skip fun value => ?_
  split
  · exact gives_ok ⟨_, rfl⟩
  · exact gives_ok ⟨_, rfl⟩
  · exact gives_ok ⟨_, rfl⟩
  · exact gives_error _

/-- A display in a rich presence shows the second argument. -/
theorem gives_presence (display : MacroDisplay) :
    Gives (args.presence display) fun v =>
      ∃ name value, args.values[1]? = some value ∧ v = .presence args.mark name display value := by
  refine Gives.skip fun name => (args.gives_get 1 "expression").bind fun value hvalue => ?_
  exact gives_ok ⟨name, value, hvalue, rfl⟩

/-- A number in a rich presence is the second argument, in some format. -/
theorem gives_presenceNumber :
    Gives args.presenceNumber fun v =>
      ∃ name display value, args.values[1]? = some value ∧ v = .presence args.mark name display value := by
  refine Gives.skip fun _ => Gives.skip fun format v hv => ?_
  obtain ⟨name, value, hvalue, rfl⟩ := args.gives_presence _ v hv
  exact ⟨name, _, value, hvalue, rfl⟩

/-- A text in a rich presence is looked up for the second argument. -/
theorem gives_presenceText :
    Gives args.presenceText fun v =>
      ∃ name display value, args.values[1]? = some value ∧ v = .presence args.mark name display value := by
  refine Gives.skip fun _ => Gives.skip fun dictionary => ?_
  split
  · refine Gives.skip fun entries => Gives.skip fun fallback v hv => ?_
    obtain ⟨name, value, hvalue, rfl⟩ := args.gives_presence _ v hv
    exact ⟨name, _, value, hvalue, rfl⟩
  · exact gives_error _

end Arguments

namespace Discipline

variable {d : Discipline} (hd : d.Lawful)

/-! ## Joining collections -/

/-- What may be joined by a joiner. -/
def Joins (d : Discipline) (joiner : Joiner) (e : Expr) : Prop :=
  match joiner with
  | .sumOf => e.isNumeric = true
  | _ => d.operand e

include hd

theorem Lawful.joins_withMark {joiner : Joiner} {e : Expr} {mark : Mark} (h : d.Joins joiner e) :
    d.Joins joiner (e.withMark mark) := by
  cases joiner with
  | sumOf => cases e <;> exact h
  | allOf | anyOf | noneOf => exact hd.operand_withMark h

/-- An item that is ready to be joined is a value that may be joined. -/
theorem Lawful.gives_prepare {joiner : Joiner} {args : Arguments} {item : Expr} (hitem : d.Made item) :
    Gives (joiner.prepare args item) fun next => d.Made next ∧ d.Joins joiner next := by
  have hcheck : Gives (args.checkCondition "element" item) fun _ => item.isCondition = true := by
    unfold Arguments.checkCondition
    split
    · rename_i hcondition
      exact gives_ok hcondition
    · exact gives_error _
  cases joiner with
  | allOf | anyOf =>
    refine hcheck.bind fun _ hcondition => gives_ok ⟨hitem, ?_⟩
    exact hd.operand_of_isOperand (Expr.isOperand_of_isCondition hcondition)
  | noneOf => exact hcheck.bind fun _ hcondition => gives_ok (hd.made_invert hitem hcondition)
  | sumOf =>
    simp only [Joiner.prepare]
    split
    · rename_i hnumeric
      exact gives_ok ⟨hitem, hnumeric⟩
    · exact gives_error _

/-- Two numbers that were made are added up to a number that is made. -/
theorem Lawful.made_add {left right : Expr} (hleft : d.Made left) (hright : d.Made right)
    (hleft' : left.isNumeric = true) (hright' : right.isNumeric = true) :
    Gives (Joiner.add left right) fun sum => d.Made sum ∧ sum.isNumeric = true := by
  unfold Joiner.add
  split
  · split
    · exact gives_ok ⟨hd.made_leaf trivial rfl, rfl⟩
    · exact gives_error _
  · rename_i hnot
    have hreads : left.readsMemory = true ∨ right.readsMemory = true := by
      rcases Expr.readsMemory_or_integers hleft' hright' with hreads | ⟨mark, a, mark', b, rfl, rfl⟩
      · exact hreads
      · exact absurd rfl (hnot mark a mark' b rfl)
    refine gives_ok ⟨hd.made ⟨hreads, hleft', hright'⟩ ?_, ?_⟩
    · simp [Expr.children, hleft, hright]
    · simpa [Expr.isNumeric, Expr.readsMemory] using hreads

/-- What is joined is a value that may be joined again. -/
theorem Lawful.gives_combine {joiner : Joiner} {left right : Expr} (hleft : d.Made left ∧ d.Joins joiner left)
    (hright : d.Made right ∧ d.Joins joiner right) :
    Gives (joiner.combine left right) fun joined => d.Made joined ∧ d.Joins joiner joined := by
  cases joiner with
  | allOf | noneOf => exact gives_ok (hd.made_connect (by decide) hleft.1 hright.1 hleft.2 hright.2)
  | anyOf => exact gives_ok (hd.made_connect (by decide) hleft.1 hright.1 hleft.2 hright.2)
  | sumOf => exact hd.made_add hleft.1 hright.1 hleft.2 hright.2

/-- Collections are joined alike if their elements are. -/
theorem agree_joinItems {joiner : Joiner} {args : Arguments} {element element' : Expr → Eval Expr} {items : List Expr}
    (helement : ∀ item ∈ items, d.Agree d.Made (element item) (element' item)) {joined? : Option Expr}
    (hjoined : ∀ joined, joined? = some joined → d.Made joined ∧ d.Joins joiner joined) :
    d.Agree (fun result => ∀ joined, result = some joined → d.Made joined ∧ d.Joins joiner joined)
      (joiner.joinItems args element joined? items) (joiner.joinItems args element' joined? items) := by
  induction items generalizing joined? with
  | nil => exact Run.agree_pure hjoined
  | cons item items ih =>
    rw [List.forall_mem_cons] at helement
    refine helement.1.bind fun value hvalue => ?_
    refine (Run.agree_ofExcept (hd.gives_prepare hvalue)).bind fun next hnext => ?_
    have hunit : d.Made next.asUnit ∧ d.Joins joiner next.asUnit := ⟨hd.made_asUnit hnext.1, hd.joins_withMark hnext.2⟩
    have hrest : ∀ joined, d.Made joined ∧ d.Joins joiner joined →
        d.Agree (fun result => ∀ joined, result = some joined → d.Made joined ∧ d.Joins joiner joined)
          (joiner.joinItems args element (some joined) items) (joiner.joinItems args element' (some joined) items) := by
      intro joined hjoined
      refine ih helement.2 ?_
      intro joined' heq
      obtain rfl := Option.some.inj heq
      exact hjoined
    cases joined? with
    | none => exact hrest _ hunit
    | some joined => exact (Run.agree_ofExcept (hd.gives_combine (hjoined joined rfl) hunit)).bind hrest

/-- Functions that join a collection agree if the functions that they apply do. -/
theorem agree_join {joiner : Joiner} {args : Arguments} (hargs : ∀ value ∈ args.values, d.Made value)
    {apply apply' : String → Expr → Eval (Option Expr)}
    (happly : ∀ mark name item, Expr.functionRef mark name ∈ args.values → d.Made item →
      d.Agree d.MadeOption (apply name item) (apply' name item)) :
    d.Agree d.Made (joiner.join args apply) (joiner.join args apply') := by
  refine Run.agree_skip fun _ => ?_
  refine (Run.agree_ofExcept (args.gives_get 0 "inputs")).bind fun inputs hinputs => ?_
  cases hitems : inputs.items? with
  | none => exact Run.agree_fail _
  | some items =>
    have hmade : ∀ item ∈ items, d.Made item :=
      made_of_items? (hargs inputs (List.mem_of_getElem? hinputs)) hitems
    have hpredicate : Gives (Joiner.predicate? args) fun predicate? =>
        ∀ name, predicate? = some name → ∃ mark, Expr.functionRef mark name ∈ args.values := by
      rintro predicate? hgiven name rfl
      exact Joiner.mem_values_of_predicate? hgiven
    refine (Run.agree_ofExcept hpredicate).bind fun predicate? hpredicate => ?_
    have helement : ∀ item ∈ items, d.Agree d.Made (Joiner.join.element args apply predicate? item)
        (Joiner.join.element args apply' predicate? item) := by
      intro item hitem
      cases predicate? with
      | none => exact Run.agree_pure (hmade item hitem)
      | some name =>
        obtain ⟨mark, hmem⟩ := hpredicate name rfl
        refine (happly mark name item hmem (hmade item hitem)).bind fun result hresult => ?_
        cases result with
        | none => exact Run.agree_fail _
        | some value => exact Run.agree_pure (hresult value rfl)
    refine (agree_joinItems hd helement fun joined hjoined => by cases hjoined).bind fun joined? hjoined => ?_
    refine Run.agree_pure (hd.made_asUnit ?_)
    cases joined? with
    | some joined => exact (hjoined joined rfl).1
    | none => cases joiner <;> exact hd.made_leaf trivial rfl

/-! ## All functions -/

omit hd in
/-- A function without effects agrees with itself if it gives values that may be made. -/
theorem agree_giving {result : Except Error Expr} (h : Gives result d.Made) :
    d.Agree d.MadeOption (Builtin.giving result) (Builtin.giving result) :=
  (Run.agree_ofExcept h).bind fun _ hv => Run.agree_pure (madeOption_some hv)

omit hd in
/-- A run that registers what may be registered agrees with itself, whatever the discipline says of errors. -/
theorem agree_of_output {α : Type} {run : Eval α} {post : α → Prop}
    (houtput : ∀ output, d.output output → d.output (run output).2)
    (h : Run.Agree (fun _ => False) (fun _ => True) post run run) : d.Agree post run run :=
  fun output hout => ⟨houtput output hout, (h output trivial).2.1, .inl rfl⟩

omit hd in
/-- A function that gives no value. -/
theorem agree_silently (run : Eval Unit) :
    Run.Agree (fun _ => False) (fun _ => True) d.MadeOption (Builtin.silently run) (Builtin.silently run) :=
  (Run.agree_refl fun _ _ => trivial).bind fun _ _ => Run.agree_pure madeOption_none

/-- Built-in functions agree if the functions that they apply do, and give values for values. -/
theorem agree_apply {badge : String} {builtin : Builtin} {args : Arguments} (hargs : ∀ value ∈ args.values, d.Made value)
    {apply apply' : String → Expr → Eval (Option Expr)}
    (happly : ∀ mark name item, Expr.functionRef mark name ∈ args.values → d.Made item →
      d.Agree d.MadeOption (apply name item) (apply' name item)) :
    d.Agree d.MadeOption (builtin.apply badge apply args) (builtin.apply badge apply' args) := by
  have hget : ∀ {index : Nat} {value : Expr}, args.values[index]? = some value → d.Made value :=
    fun h => hargs _ (List.mem_of_getElem? h)
  cases builtin with
  | read size =>
    refine agree_giving fun v hv => ?_
    obtain ⟨_, _, _, _, _, rfl⟩ := args.gives_readMemory size v hv
    exact hd.made_leaf trivial rfl
  | bit =>
    refine agree_giving fun v hv => ?_
    obtain ⟨_, _, _, _, _, _, _, _, _, rfl⟩ := args.gives_readBit v hv
    exact hd.made_leaf trivial rfl
  | prev | prior | bcd =>
    refine agree_giving fun v hv => ?_
    obtain ⟨_, _, _, _, rfl⟩ := args.gives_withMode _ v hv
    exact hd.made_leaf trivial rfl
  | repeated =>
    refine agree_giving fun v hv => ?_
    obtain ⟨_, condition, hcondition, rfl⟩ := args.gives_repeatCondition v hv
    exact hd.made trivial (by simpa [Expr.children] using hget hcondition)
  | tally =>
    refine agree_giving fun v hv => ?_
    obtain ⟨_, rfl⟩ := args.gives_tallyConditions v hv
    refine hd.made trivial fun part hpart => ?_
    obtain ⟨value, hvalue, hpart⟩ := List.mem_flatMap.mp hpart
    have hmade := hargs value (List.mem_of_mem_tail hvalue)
    split at hpart
    · exact hmade.part hpart
    · rw [List.mem_singleton.mp hpart]
      exact hmade
  | alwaysTrue | alwaysFalse =>
    refine agree_giving fun v hv => ?_
    obtain ⟨rfl, _⟩ := args.gives_constantCondition _ v hv
    exact hd.made_leaf trivial rfl
  | join joiner => exact (agree_join hd hargs happly).bind fun _ hv => Run.agree_pure (madeOption_some hv)
  | range =>
    refine agree_giving fun v hv => ?_
    obtain ⟨values, rfl⟩ := args.gives_rangeArray v hv
    refine hd.made trivial fun part hpart => ?_
    obtain ⟨value, _, rfl⟩ := List.mem_map.mp hpart
    exact hd.made_leaf trivial rfl
  | length =>
    refine agree_giving fun v hv => ?_
    obtain ⟨_, rfl⟩ := args.gives_lengthOf v hv
    exact hd.made_leaf trivial rfl
  | format =>
    refine agree_of_output (fun output hout => hd.output_apply (by intro joiner h; cases h) hout) ?_
    have hformat : Run.Agree (fun _ => False) (fun _ => True) d.Made args.formatText args.formatText := by
      refine Run.agree_skip fun _ => Run.agree_skip fun template => ?_
      exact (Run.agree_refl fun _ _ => trivial).bind fun text _ => Run.agree_pure (hd.made_leaf trivial rfl)
    exact hformat.bind fun _ hv => Run.agree_pure (madeOption_some hv)
  | achievement | leaderboard | display | conditionalDisplay =>
    exact agree_of_output (fun output hout => hd.output_apply (by intro joiner h; cases h) hout) (agree_silently _)
  | presenceValue =>
    refine agree_giving fun v hv => ?_
    obtain ⟨_, _, value, hvalue, rfl⟩ := args.gives_presenceNumber v hv
    exact hd.made trivial (by simpa [Expr.children] using hget hvalue)
  | presenceLookup =>
    refine agree_giving fun v hv => ?_
    obtain ⟨_, _, value, hvalue, rfl⟩ := args.gives_presenceText v hv
    exact hd.made trivial (by simpa [Expr.children] using hget hvalue)
  | _ =>
    refine agree_giving fun v hv => ?_
    obtain ⟨condition, hcondition, rfl⟩ := args.gives_modify _ v hv
    exact hd.made trivial (by simpa [Expr.children] using hget hcondition)

end Discipline

end TriggerScript
