import TriggerScript.Proofs.Eval.Fixpoints
import TriggerScript.Proofs.Eval.Folding
import TriggerScript.Proofs.Eval.Mentions
import TriggerScript.Proofs.Eval.Spelling

/-!
# Values that are read again

The spelling of a value evaluates to the value, wherever no variable hides a name in it: literals and operators over memory
stay as they are, and the calls in it make what they were printed for.
-/

namespace TriggerScript

namespace Expr

/-- Evaluating a tree gives a value, up to marks, and does nothing else. -/
def EvaluatesTo (env : Env) (e v : Expr) : Prop :=
  e.isValue = true ∧ ∃ v', e.replace env = pure v' ∧ v'.bare = v.bare

/-- Every tree that is the same as a tree evaluates to a value. -/
def Remakes (env : Env) (spelling v : Expr) : Prop :=
  ∀ e : Expr, e.bare = spelling.bare → EvaluatesTo env e v

/-- Trees that remake values one by one. -/
inductive RemakeAll (env : Env) : List Expr → List Expr → Prop
  | nil : RemakeAll env [] []
  | cons {spelling v : Expr} {spellings vs : List Expr} (first : Remakes env spelling v)
    (others : RemakeAll env spellings vs) : RemakeAll env (spelling :: spellings) (v :: vs)

variable {env : Env}

/-- Trees that remake values one by one are evaluated to these values. -/
theorem evaluateAll_of_remakeAll {es spellings vs : List Expr} (h : RemakeAll env spellings vs)
    (hes : bareList es = bareList spellings) : ∃ vs', evaluateAll env es = pure vs' ∧ bareList vs' = bareList vs := by
  induction h generalizing es with
  | nil =>
    cases es with
    | nil => exact ⟨[], rfl, rfl⟩
    | cons => cases hes
  | cons first others ih =>
    cases es with
    | nil => cases hes
    | cons e es =>
      obtain ⟨hfirst, hothers⟩ := List.cons.inj hes
      obtain ⟨hvalue, v', hv', hbare⟩ := first e hfirst
      obtain ⟨vs', hvs', hbares⟩ := ih hothers
      refine ⟨v' :: vs', ?_, ?_⟩
      · rw [evaluateAll, ifValue_of_isValue hvalue, hv', hvs']
        rfl
      · rw [bareList, bareList, hbare, hbares]

/-- Spellings remake their values one by one if each does. -/
theorem remakeAll_map {spell : Expr → Expr} {vs : List Expr} (h : ∀ v ∈ vs, Remakes env (spell v) v) :
    RemakeAll env (vs.map spell) vs := by
  induction vs with
  | nil => exact .nil
  | cons v vs ih =>
    rw [List.forall_mem_cons] at h
    exact .cons h.1 (ih h.2)

/-- An array is remade from its entries. -/
theorem remakes_array {spellings vs : List Expr} (h : RemakeAll env spellings vs) (mark mark' : Mark) :
    Remakes env (.array mark spellings) (.array mark' vs) := by
  intro e he
  cases e with
  | array mark'' es =>
    obtain ⟨_, hes⟩ := Expr.array.inj he
    obtain ⟨vs', hvs', hbares⟩ := evaluateAll_of_remakeAll h hes
    refine ⟨rfl, .array mark'' vs', ?_, ?_⟩
    · rw [replace, hvs']
      rfl
    · rw [bare, bare, hbares]
  | _ => cases he

/-- Whether entries have a key does not depend on marks. -/
theorem any_same_iff {entries : List (Expr × Expr)} {key : Expr} :
    entries.any (·.1.same key) = true ↔ key.bare ∈ (bareEntries entries).map (·.1) := by
  rw [List.any_eq_true, bareEntries_eq, List.map_map, List.mem_map]
  exact exists_congr fun entry => and_congr_right fun _ => same_iff

/-- Entries of a dictionary whose keys differ are evaluated to entries that are the same. -/
theorem evaluateEntries_of_remakes {spell : Expr → Expr} {es done done' entries : List (Expr × Expr)}
    (h : ∀ entry ∈ entries, Remakes env (spell entry.1) entry.1 ∧ Remakes env (spell entry.2) entry.2)
    (hes : bareEntries es = bareEntries (entries.map fun entry => (spell entry.1, spell entry.2)))
    (hdone : bareEntries done' = bareEntries done)
    (hkeys : ((done ++ entries).map (·.1)).Pairwise fun key key' => key.same key' = false) :
    ∃ entries', evaluateEntries env done' es = pure entries' ∧ bareEntries entries' = bareEntries (done ++ entries) := by
  induction entries generalizing es done done' with
  | nil =>
    cases es with
    | nil => exact ⟨done', rfl, by rw [hdone, List.append_nil]⟩
    | cons => cases hes
  | cons entry entries ih =>
    cases es with
    | nil => cases hes
    | cons e es =>
      obtain ⟨hfirst, hothers⟩ := List.cons.inj hes
      obtain ⟨hkey, hvalue⟩ := Prod.mk.inj hfirst
      rw [List.forall_mem_cons] at h
      obtain ⟨hkeyValue, key', hkey', hkeyBare⟩ := h.1.1 e.1 hkey
      obtain ⟨hvalueValue, value', hvalue', hvalueBare⟩ := h.1.2 e.2 hvalue
      have hfresh : ¬ done'.any (·.1.same key') = true := by
        rw [any_same_iff, hdone, hkeyBare, ← any_same_iff, List.any_eq_true]
        rintro ⟨other, hother, hsame⟩
        rw [List.map_append, List.pairwise_append] at hkeys
        have hne := hkeys.2.2 other.1 (List.mem_map_of_mem hother) entry.1 (by simp)
        rw [hsame] at hne
        cases hne
      have happend : done ++ entry :: entries = done ++ [entry] ++ entries := by simp
      rw [happend] at hkeys ⊢
      have hdone' : bareEntries (done' ++ [(key', value')]) = bareEntries (done ++ [entry]) := by
        rw [bareEntries_eq] at hdone ⊢
        rw [bareEntries_eq] at hdone ⊢
        rw [List.map_append, List.map_append, hdone, List.map_singleton, List.map_singleton, hkeyBare, hvalueBare]
      obtain ⟨entries', hentries', hbares⟩ := ih h.2 hothers hdone' hkeys
      refine ⟨entries', ?_, hbares⟩
      rw [evaluateEntries, ifValue_of_isValue hkeyValue, hkey', ifValue_of_isValue hvalueValue, hvalue', ← hentries']
      exact if_neg hfresh

/-- A dictionary is remade from its keys and values, as no two keys are the same. -/
theorem remakes_dictionary {spell : Expr → Expr} {entries : List (Expr × Expr)}
    (h : ∀ entry ∈ entries, Remakes env (spell entry.1) entry.1 ∧ Remakes env (spell entry.2) entry.2)
    (hkeys : (entries.map (·.1)).Pairwise fun key key' => key.same key' = false) (mark mark' : Mark) :
    Remakes env (.dictionary mark (entries.map fun entry => (spell entry.1, spell entry.2))) (.dictionary mark' entries) := by
  intro e he
  cases e with
  | dictionary mark'' es =>
    obtain ⟨_, hes⟩ := Expr.dictionary.inj he
    have hnil : bareEntries [] = bareEntries [] := rfl
    obtain ⟨entries', hentries', hbares⟩ := evaluateEntries_of_remakes h hes hnil hkeys
    refine ⟨rfl, .dictionary mark'' entries', ?_, ?_⟩
    · rw [replace, hentries']
      rfl
    · rw [bare, bare, hbares, List.nil_append]
  | _ => cases he

/-- Whether evaluation makes a node does not depend on marks. -/
theorem isMade_of_bare_eq {defined : String → Prop} {v v' : Expr} (h : v'.bare = v.bare) (hv : v.IsMade defined) :
    v'.IsMade defined := by
  rw [← isMade_bare, h, isMade_bare]
  exact hv

section Operators

variable {defined : String → Prop} {mark mark' : Mark} {left right spelling spelling' : Expr}

/-- Arithmetic that folding leaves is remade from its operands. -/
theorem remakes_arithmetic {op : ArithmeticOp} (hleft : Remakes env spelling left) (hright : Remakes env spelling' right)
    (hmade : (Expr.arithmetic mark' op left right).IsMade defined) :
    Remakes env (.arithmetic mark op spelling spelling') (.arithmetic mark' op left right) := by
  intro e he
  cases e with
  | arithmetic mark'' op' eleft eright =>
    obtain ⟨_, rfl, heleft, heright⟩ := Expr.arithmetic.inj he
    obtain ⟨_, left', hleft', hleftBare⟩ := hleft eleft heleft
    obtain ⟨_, right', hright', hrightBare⟩ := hright eright heright
    have hbare : (Expr.arithmetic mark'' op' left' right').bare = (Expr.arithmetic mark' op' left right).bare := by
      rw [bare, bare, hleftBare, hrightBare]
    obtain ⟨hreads, hnumeric, hnumeric'⟩ := isMade_of_bare_eq hbare hmade
    refine ⟨rfl, _, ?_, hbare⟩
    rw [replace, hleft', hright']
    exact congrArg Run.ofExcept (Fold.arithmetic_of_readsMemory hreads hnumeric hnumeric')
  | _ => cases he

/-- A comparison that folding leaves is remade from its operands. -/
theorem remakes_comparison {op : ComparisonOp} (hleft : Remakes env spelling left) (hright : Remakes env spelling' right)
    (hmade : (Expr.comparison mark' op left right).IsMade defined) :
    Remakes env (.comparison mark op spelling spelling') (.comparison mark' op left right) := by
  intro e he
  cases e with
  | comparison mark'' op' eleft eright =>
    obtain ⟨_, rfl, heleft, heright⟩ := Expr.comparison.inj he
    obtain ⟨_, left', hleft', hleftBare⟩ := hleft eleft heleft
    obtain ⟨_, right', hright', hrightBare⟩ := hright eright heright
    have hbare : (Expr.comparison mark'' op' left' right').bare = (Expr.comparison mark' op' left right).bare := by
      rw [bare, bare, hleftBare, hrightBare]
    obtain ⟨hreads, hnumeric, hnumeric'⟩ := isMade_of_bare_eq hbare hmade
    refine ⟨rfl, _, ?_, hbare⟩
    rw [replace, hleft', hright']
    exact congrArg Run.ofExcept (Fold.comparison_of_readsMemory hreads hnumeric hnumeric')
  | _ => cases he

/-- A negation that folding leaves is remade from its operand. -/
theorem remakes_not (hright : Remakes env spelling' right) (hmade : (Expr.logical mark' .not none right).IsMade defined) :
    Remakes env (.logical mark .not none spelling') (.logical mark' .not none right) := by
  intro e he
  cases e with
  | logical mark'' op' eleft? eright =>
    obtain ⟨_, rfl, heleft, heright⟩ := Expr.logical.inj he
    cases eleft? with
    | some eleft => cases heleft
    | none =>
      obtain ⟨_, right', hright', hrightBare⟩ := hright eright heright
      have hbare : (Expr.logical mark'' .not none right').bare = (Expr.logical mark' .not none right).bare := by
        rw [bare, bare, hrightBare]
      obtain ⟨hoperand, hconst⟩ := isMade_of_bare_eq hbare hmade
      refine ⟨rfl, _, ?_, hbare⟩
      rw [replace, replaceOption, hright']
      exact congrArg Run.ofExcept (Fold.logical_not hoperand hconst)
  | _ => cases he

/-- Joined conditions that folding leaves are remade from their operands. -/
theorem remakes_join {op : LogicalOp} (hop : op ≠ .not) (hleft : Remakes env spelling left)
    (hright : Remakes env spelling' right) (hmade : (Expr.logical mark' op (some left) right).IsMade defined) :
    Remakes env (.logical mark op (some spelling) spelling') (.logical mark' op (some left) right) := by
  intro e he
  cases e with
  | logical mark'' op' eleft? eright =>
    obtain ⟨_, rfl, heleft, heright⟩ := Expr.logical.inj he
    cases eleft? with
    | none => cases heleft
    | some eleft =>
      obtain ⟨_, left', hleft', hleftBare⟩ := hleft eleft (Option.some.inj heleft)
      obtain ⟨_, right', hright', hrightBare⟩ := hright eright heright
      have hbare : (Expr.logical mark'' op' (some left') right').bare = (Expr.logical mark' op' (some left) right).bare := by
        rw [bare, bare, bareOption, bareOption, hleftBare, hrightBare]
      have hmade' := isMade_of_bare_eq hbare hmade
      refine ⟨rfl, _, ?_, hbare⟩
      rw [replace, replaceOption, hleft', hright']
      cases op' with
      | not => exact absurd rfl hop
      | and | or =>
        obtain ⟨⟨hoperand, hconst⟩, hoperand', hconst'⟩ := hmade'
        exact congrArg Run.ofExcept (Fold.logical_of_truth? (by decide) hoperand hoperand' hconst hconst')
  | _ => cases he

end Operators

/-- Every tree that is the same as a normal form stays as it is. -/
theorem remakes_of_isNormal {v : Expr} (h : v.IsNormal) : Remakes env v v := by
  intro e he
  have hnormal : e.IsNormal := h.of_same (same_iff.mpr he.symm)
  exact ⟨hnormal.isValue, e, replace_of_isNormal hnormal, he⟩

theorem remakes_unsigned (n : UInt32) : Remakes env (.unsigned n) (.unsigned n) :=
  remakes_of_isNormal (everywhere_of_children_nil rfl trivial)

/-- The arguments of a call that modifies a condition. -/
theorem remakeAll_modifierArguments {spelling condition : Expr} (h : Remakes env spelling condition) (modifier : Modifier) :
    RemakeAll env (modifierArguments spelling modifier) (modifierArguments condition modifier) := by
  cases modifier with
  | repeated count =>
    unfold modifierArguments
    dsimp only
    split
    · exact .cons h .nil
    · exact .cons (remakes_unsigned count) (.cons h .nil)
  | _ => exact .cons h .nil

end Expr

/-! ## Functions that make values -/

namespace Arguments

variable {args : Arguments} {mark : Mark} {value : Int64} {n : UInt32} {condition : Expr}

theorem get_of_getElem? {index : Nat} (name : String) {e : Expr} (h : args.values[index]? = some e) :
    args.get index name = .ok e := by
  rw [get, h]

/-- A condition at an index is the argument there. -/
theorem condition_of_isCondition {index : Nat} (name : String) (hvalue : args.values[index]? = some condition)
    (hcondition : condition.isCondition = true) : args.condition index name = .ok condition :=
  bind_eq_ok.mpr ⟨condition, get_of_getElem? name hvalue, bind_eq_ok.mpr ⟨(), if_pos hcondition, rfl⟩⟩

/-- A count that is not zero is a positive argument. -/
theorem positive_of_ne_zero {index : Nat} (name : String) (hvalue : args.values[index]? = some (.integer mark value))
    (hn : uint32? value.toInt = some n) (hne : n ≠ 0) : args.positive index name = .ok n := by
  have hinteger : args.integer index name = .ok value := bind_eq_ok.mpr ⟨_, get_of_getElem? name hvalue, rfl⟩
  refine bind_eq_ok.mpr ⟨value, hinteger, ?_⟩
  rw [hn]
  exact if_neg hne

/-- A read is made of its address. -/
theorem readMemory_eq_ok (size : MemorySize) (hvalues : args.values = [.integer mark value])
    (hn : uint32? value.toInt = some n) : args.readMemory size = .ok (.memory args.mark (.ofSize size n)) := by
  have hbetween : args.expectBetween 1 1 = .ok () := by
    rw [expectBetween, expectAtLeast, hvalues]
    rfl
  have haddress : args.address 0 = .ok n := by
    refine bind_eq_ok.mpr ⟨.integer mark value, get_of_getElem? "address" (by rw [hvalues]; rfl), ?_⟩
    dsimp only
    rw [hn]
    rfl
  exact bind_eq_ok.mpr ⟨(), hbetween, bind_eq_ok.mpr ⟨n, haddress, rfl⟩⟩

/-- A read in another mode is made of the read in the current frame. -/
theorem withMode_eq_ok (mode : ReadMode) {read : MemoryRead} (hvalues : args.values = [.memory mark read])
    (hmode : read.mode = .current) : args.withMode mode = .ok (.memory args.mark { read with mode }) := by
  have hbetween : args.expectBetween 1 1 = .ok () := by
    rw [expectBetween, expectAtLeast, hvalues]
    rfl
  have hget : args.get 0 "accessor" = .ok (.memory mark read) := get_of_getElem? _ (by rw [hvalues]; rfl)
  exact bind_eq_ok.mpr ⟨(), hbetween, bind_eq_ok.mpr ⟨_, hget, if_pos hmode⟩⟩

/-- A modified condition is made of the condition. -/
theorem modify_eq_ok (modifier : Modifier) (hvalues : args.values = [condition]) (hcondition : condition.isCondition = true) :
    args.modify modifier = .ok (.modified args.mark modifier condition) := by
  have hbetween : args.expectBetween 1 1 = .ok () := by
    rw [expectBetween, expectAtLeast, hvalues]
    rfl
  have hargument : args.condition 0 "condition" = .ok condition :=
    condition_of_isCondition _ (by rw [hvalues]; rfl) hcondition
  exact bind_eq_ok.mpr ⟨(), hbetween, bind_eq_ok.mpr ⟨condition, hargument, rfl⟩⟩

/-- A repeated condition is made of its count and the condition. -/
theorem repeatCondition_eq_ok (hvalues : args.values = [.integer mark value, condition])
    (hn : uint32? value.toInt = some n) (hne : n ≠ 0) (hcondition : condition.isCondition = true) :
    args.repeatCondition = .ok (.modified args.mark (.repeated n) condition) := by
  have hbetween : args.expectBetween 2 2 = .ok () := by
    rw [expectBetween, expectAtLeast, hvalues]
    rfl
  have hcount : args.positive 0 "count" = .ok n := positive_of_ne_zero _ (by rw [hvalues]; rfl) hn hne
  have hargument : args.condition 1 "condition" = .ok condition :=
    condition_of_isCondition _ (by rw [hvalues]; rfl) hcondition
  exact bind_eq_ok.mpr ⟨(), hbetween, bind_eq_ok.mpr ⟨n, hcount, bind_eq_ok.mpr ⟨condition, hargument, rfl⟩⟩⟩

/-- Conditions are taken as they are. -/
theorem tallyEntries_of_forall {entries : List Expr} (h : ∀ entry ∈ entries, entry.isCondition = true) :
    tallyEntries entries = entries := by
  induction entries with
  | nil => rfl
  | cons entry entries ih =>
    rw [List.forall_mem_cons] at h
    have hrest := ih h.2
    unfold tallyEntries at hrest ⊢
    rw [List.flatMap_cons, hrest]
    cases entry with
    | array => cases h.1
    | _ => rfl

/-- Conditions pass the check of all of them. -/
theorem forM_checkCondition {entries : List Expr} (name : String) (h : ∀ entry ∈ entries, entry.isCondition = true) :
    entries.forM (args.checkCondition name) = .ok () := by
  induction entries with
  | nil => rfl
  | cons entry entries ih =>
    rw [List.forall_mem_cons] at h
    exact bind_eq_ok.mpr ⟨(), if_pos h.1, ih h.2⟩

/-- A tally is made of its target and its conditions. -/
theorem tallyConditions_eq_ok {entries : List Expr} (hvalues : args.values = .integer mark value :: entries)
    (hn : uint32? value.toInt = some n) (hne : n ≠ 0) (hentries : entries ≠ [])
    (hconditions : ∀ entry ∈ entries, entry.isCondition = true) :
    args.tallyConditions = .ok (.tally args.mark n entries) := by
  have hleast : args.expectAtLeast 2 = .ok () := by
    have hlength := List.length_pos_iff.mpr hentries
    refine if_neg ?_
    rw [hvalues, List.length_cons]
    omega
  have hcount : args.positive 0 "count" = .ok n := positive_of_ne_zero _ (by rw [hvalues]; rfl) hn hne
  have htally : tallyEntries args.values.tail = entries := by
    rw [hvalues, List.tail_cons, tallyEntries_of_forall hconditions]
  refine bind_eq_ok.mpr ⟨(), hleast, bind_eq_ok.mpr ⟨n, hcount, ?_⟩⟩
  rw [htally]
  refine bind_eq_ok.mpr ⟨(), forM_checkCondition _ hconditions, ?_⟩
  rw [if_neg (by simpa using hentries)]
  rfl

end Arguments

/-! ## Calls in spellings -/

namespace Expr

/-- Whether a value is a condition does not depend on marks. -/
theorem isCondition_of_bare_eq {e e' : Expr} (h : e.bare = e'.bare) : e.isCondition = e'.isCondition := by
  have hbare : ∀ e : Expr, e.bare.isCondition = e.isCondition := by
    intro e
    cases e <;> rfl
  rw [← hbare, h, hbare]

/-- What differs from a list of one tree only in marks is a list of one tree. -/
theorem exists_singleton_of_bareList {es : List Expr} {e : Expr} (h : bareList es = bareList [e]) :
    ∃ e', es = [e'] ∧ e'.bare = e.bare := by
  cases es with
  | nil => cases h
  | cons e' es =>
    obtain ⟨hfirst, hothers⟩ := List.cons.inj h
    cases es with
    | nil => exact ⟨e', rfl, hfirst⟩
    | cons => cases hothers

/-- What differs from an address or a count only in marks is an integer of 32 bits. -/
theorem exists_unsigned_of_bare {e : Expr} {n : UInt32} (h : e.bare = (unsigned n).bare) :
    ∃ mark value, e = .integer mark value ∧ uint32? value.toInt = some n := by
  cases e with
  | integer mark value =>
    obtain ⟨_, rfl⟩ := Expr.integer.inj h
    exact ⟨mark, _, rfl, uint32?_eq_some_iff.mpr (toInt_unsigned n).symm⟩
  | _ => cases h

/-- What differs from a read only in marks is this read. -/
theorem exists_memory_of_bare {e : Expr} {mark : Mark} {read : MemoryRead} (h : e.bare = (Expr.memory mark read).bare) :
    ∃ mark', e = .memory mark' read := by
  cases e with
  | memory mark' read' =>
    obtain ⟨_, rfl⟩ := Expr.memory.inj h
    exact ⟨mark', rfl⟩
  | _ => cases h

end Expr

namespace Builtin

/-- A function makes a value of arguments that are the same as some, up to marks. -/
def Makes (builtin : Builtin) (badge : String) (values : List Expr) (v : Expr) : Prop :=
  ∀ apply span values', Expr.bareList values' = Expr.bareList values →
    ∃ v', builtin.apply badge apply { function := builtin.name, values := values', span } = pure (some v') ∧ v'.bare = v.bare

variable {badge : String} {mark : Mark}

theorem giving_ok {result : Except Error Expr} {v : Expr} (h : result = .ok v) : giving result = pure (some v) := by
  rw [h]
  rfl

/-- The function of a size makes a read of an address. -/
theorem makes_read (size : MemorySize) (n : UInt32) :
    (Builtin.read size).Makes badge [Expr.unsigned n] (.memory mark (.ofSize size n)) := by
  intro apply span values' hvalues
  obtain ⟨e, rfl, he⟩ := Expr.exists_singleton_of_bareList hvalues
  obtain ⟨mark', value, rfl, hn⟩ := Expr.exists_unsigned_of_bare he
  exact ⟨_, giving_ok (Arguments.readMemory_eq_ok size rfl hn), rfl⟩

/-- The function of a mode makes a read in this mode of a current one. -/
theorem makes_mode {builtin : Builtin} {mode : ReadMode} (hbuiltin : mode.builtin? = some builtin) (size : MemorySize)
    (n : UInt32) : builtin.Makes badge [.memory mark (.ofSize size n)] (.memory mark { mode, size, address := n }) := by
  intro apply span values' hvalues
  obtain ⟨e, rfl, he⟩ := Expr.exists_singleton_of_bareList hvalues
  obtain ⟨mark', rfl⟩ := Expr.exists_memory_of_bare he
  cases mode with
  | current => cases hbuiltin
  | previous | prior | decimal =>
    obtain rfl := Option.some.inj hbuiltin
    exact ⟨_, giving_ok (Arguments.withMode_eq_ok _ rfl rfl), rfl⟩

/-- The function of a modifier makes a modified condition of its arguments. Functions that take nothing but the condition
differ only in the modifier that they give it. -/
theorem makes_modified {modifier : Modifier} (hmodifier : modifier ≠ .repeated 0) {condition : Expr}
    (hcondition : condition.isCondition = true) :
    modifier.builtin.Makes badge (Expr.modifierArguments condition modifier) (.modified mark modifier condition) := by
  have hplain : ∀ {modifier : Modifier} {builtin : Builtin},
      (∀ apply args, builtin.apply badge apply args = giving (args.modify modifier)) →
      builtin.Makes badge [condition] (.modified mark modifier condition) := by
    intro modifier builtin happly apply span values' hvalues
    obtain ⟨e, rfl, he⟩ := Expr.exists_singleton_of_bareList hvalues
    have he' : e.isCondition = true := (Expr.isCondition_of_bare_eq he).trans hcondition
    rw [happly]
    refine ⟨_, giving_ok (Arguments.modify_eq_ok modifier rfl he'), ?_⟩
    rw [Expr.bare, Expr.bare, he]
  cases modifier with
  | repeated count =>
    have hcount : count ≠ 0 := fun heq => hmodifier (congrArg Modifier.repeated heq)
    by_cases hone : count = 1
    · subst hone
      exact hplain fun _ _ => rfl
    · rw [Modifier.builtin, Expr.modifierArguments, if_neg hone, if_neg hone]
      intro apply span values' hvalues
      cases values' with
      | nil => cases hvalues
      | cons first others =>
        obtain ⟨hfirst, hothers⟩ := List.cons.inj hvalues
        obtain ⟨e, rfl, he⟩ := Expr.exists_singleton_of_bareList hothers
        obtain ⟨mark', value, rfl, hn⟩ := Expr.exists_unsigned_of_bare hfirst
        have he' : e.isCondition = true := (Expr.isCondition_of_bare_eq he).trans hcondition
        refine ⟨_, giving_ok (Arguments.repeatCondition_eq_ok rfl hn hcount he'), ?_⟩
        rw [Expr.bare, Expr.bare, he]
  | _ => exact hplain fun _ _ => rfl

/-- The function for tallies makes a tally of its target and its entries. -/
theorem makes_tally {target : UInt32} (htarget : target ≠ 0) {entries : List Expr} (hne : entries ≠ [])
    (hconditions : ∀ entry ∈ entries, entry.isCondition = true) :
    Builtin.tally.Makes badge (Expr.unsigned target :: entries) (.tally mark target entries) := by
  intro apply span values' hvalues
  cases values' with
  | nil => cases hvalues
  | cons first others =>
    obtain ⟨hfirst, hothers⟩ := List.cons.inj hvalues
    obtain ⟨mark', value, rfl, hn⟩ := Expr.exists_unsigned_of_bare hfirst
    have hmap : others.map Expr.bare = entries.map Expr.bare := by
      rw [← Expr.bareList_eq, ← Expr.bareList_eq]
      exact hothers
    have hne' : others ≠ [] := by
      rintro rfl
      exact hne (List.map_eq_nil_iff.mp hmap.symm)
    have hconditions' : ∀ entry ∈ others, entry.isCondition = true := by
      intro entry hmem
      have hbare : entry.bare ∈ entries.map Expr.bare := hmap ▸ List.mem_map_of_mem hmem
      obtain ⟨entry', hmem', heq⟩ := List.mem_map.mp hbare
      rw [← Expr.isCondition_of_bare_eq heq, hconditions entry' hmem']
    refine ⟨_, giving_ok (Arguments.tallyConditions_eq_ok rfl hn htarget hne' hconditions'), ?_⟩
    rw [Expr.bare, Expr.bare, hothers]

/-- The two fixed conditions are made of nothing. -/
theorem makes_sentinels :
    Builtin.alwaysTrue.Makes badge [] (.alwaysTrue mark) ∧ Builtin.alwaysFalse.Makes badge [] (.alwaysFalse mark) := by
  constructor <;> intro apply span values' hvalues
  all_goals
    cases values' with
    | nil => exact ⟨_, rfl, rfl⟩
    | cons => cases hvalues

end Builtin

/-! ## Spellings -/

namespace Scope

/-- A scope that has functions only: no variables, no function in place of a built-in one, and no function with a name that a
script cannot spell. -/
structure HasFunctionsOnly (scope : Scope) : Prop where
  unbound : ∀ name, scope.find? name = none
  builtin : ∀ name, Builtin.isName name = true → scope.function? name = none
  spelled : ∀ name, (scope.function? name).isSome = true → isName name = true

variable {settings : Settings} {scope : Scope} (hscope : scope.HasFunctionsOnly)
include hscope

/-- Every function of such a scope can be spelled. -/
theorem HasFunctionsOnly.isName {name : String} (h : scope.hasFunction name = true) : TriggerScript.isName name = true := by
  rcases Bool.or_eq_true_iff.mp h with hfunction | hbuiltin
  · exact hscope.spelled name hfunction
  · obtain ⟨builtin, hfound⟩ := Option.isSome_iff_exists.mp hbuiltin
    have hname : builtin.name = name := by simpa using List.find?_some hfound
    rw [← hname]
    exact builtin.isName_name

/-- A call of a function makes the value that the function makes of its arguments. -/
theorem remakes_callOf {builtin : Builtin} {spellings values : List Expr} {v : Expr}
    (hargs : Expr.RemakeAll (scope.envUnder settings) spellings values)
    (hmakes : builtin.Makes settings.defaultBadge values v) (mark : Mark) :
    Expr.Remakes (scope.envUnder settings) (.callOf mark builtin spellings) v := by
  intro e he
  cases e with
  | call mark' name es =>
    obtain ⟨_, rfl, hes⟩ := Expr.call.inj he
    obtain ⟨values', hvalues', hbares⟩ := Expr.evaluateAll_of_remakeAll hargs hes
    have hfunction : scope.function? builtin.name = none := by
      refine hscope.builtin _ ?_
      rw [Builtin.isName, builtin.ofName?_name]
      rfl
    obtain ⟨apply, hcall⟩ := envUnder_call_of_ofName? hfunction builtin.ofName?_name values' mark'.span
    obtain ⟨v', hv', hbare⟩ := hmakes apply mark'.span values' hbares
    refine ⟨rfl, v', ?_, hbare⟩
    rw [Expr.replace, hvalues']
    change (scope.envUnder settings).call builtin.name values' mark'.span >>= _ = _
    rw [hcall, hv']
    rfl
  | _ => cases he

/-- The calls in the spelling of a read make the read. -/
theorem remakes_spelledRead (mark mark' : Mark) (read : MemoryRead) :
    Expr.Remakes (scope.envUnder settings) (.spelledRead mark read) (.memory mark' read) := by
  obtain ⟨mode, size, address⟩ := read
  have hplain : Expr.Remakes (scope.envUnder settings) (.callOf mark (.read size) [.unsigned address])
      (.memory mark' (.ofSize size address)) :=
    remakes_callOf hscope (.cons (Expr.remakes_unsigned address) .nil) (Builtin.makes_read size address) mark
  cases mode with
  | current => exact hplain
  | previous | prior | decimal => exact remakes_callOf hscope (.cons hplain .nil) (Builtin.makes_mode rfl size address) mark

/-- The spelling of a value evaluates to the value. -/
theorem remakes_spelled {v : Expr} (hv : v.IsSpellable fun name => scope.hasFunction name = true) :
    Expr.Remakes (scope.envUnder settings) v.spelled v := by
  induction v using Expr.children_induction with
  | h v ih =>
    have hpart : ∀ part ∈ v.children, Expr.Remakes (scope.envUnder settings) part.spelled part :=
      fun part hmem => ih part hmem (hv.part hmem)
    obtain ⟨hmade, hspellable⟩ := hv.root
    cases v with
    | integer | text | boolean => exact Expr.remakes_of_isNormal (Expr.everywhere_of_children_nil rfl trivial)
    | functionRef mark name =>
      intro e he
      cases e with
      | var mark' name' =>
        obtain ⟨_, rfl⟩ := Expr.var.inj he
        refine ⟨rfl, .functionRef { span := mark'.span } name', ?_, rfl⟩
        change (scope.env (settings.caller scope)).resolve name' mark'.span = _
        rw [env_resolve, resolveWith, hscope.unbound]
        exact if_pos hmade
      | _ => cases he
    | array mark entries =>
      rw [Expr.spelled, Expr.spelledList_eq]
      exact Expr.remakes_array (Expr.remakeAll_map hpart) mark mark
    | dictionary mark entries =>
      rw [Expr.spelled, Expr.spelledEntries_eq]
      exact Expr.remakes_dictionary (Expr.forall_children_dictionary.mp hpart) hmade mark mark
    | arithmetic mark op left right =>
      exact Expr.remakes_arithmetic (hpart left (by simp [Expr.children])) (hpart right (by simp [Expr.children])) hmade
    | comparison mark op left right =>
      exact Expr.remakes_comparison (hpart left (by simp [Expr.children])) (hpart right (by simp [Expr.children])) hmade
    | logical mark op left right =>
      have hright := hpart right (by simp [Expr.children])
      cases left with
      | none =>
        cases op with
        | not => exact Expr.remakes_not hright hmade
        | and | or => cases hmade
      | some left =>
        have hleft := hpart left (by simp [Expr.children])
        cases op with
        | not => cases hmade
        | and | or => exact Expr.remakes_join (by decide) hleft hright hmade
    | memory mark read => exact remakes_spelledRead hscope mark mark read
    | modified mark modifier condition =>
      simp only [Expr.isSpellable, Bool.and_eq_true, decide_eq_true_eq] at hspellable
      have hargs := Expr.remakeAll_modifierArguments (hpart condition (by simp [Expr.children])) modifier
      exact remakes_callOf hscope hargs (Builtin.makes_modified hspellable.1 hspellable.2) mark
    | tally mark target entries =>
      simp only [Expr.isSpellable, Bool.and_eq_true, decide_eq_true_eq, Bool.not_eq_true', List.isEmpty_eq_false_iff,
        List.all_eq_true] at hspellable
      obtain ⟨⟨htarget, hne⟩, hconditions⟩ := hspellable
      have hargs := Expr.RemakeAll.cons (Expr.remakes_unsigned target) (Expr.remakeAll_map hpart)
      rw [Expr.spelled, Expr.spelledList_eq]
      exact remakes_callOf hscope hargs (Builtin.makes_tally htarget hne hconditions) mark
    | alwaysTrue mark => exact remakes_callOf hscope .nil Builtin.makes_sentinels.1 mark
    | alwaysFalse mark => exact remakes_callOf hscope .nil Builtin.makes_sentinels.2 mark
    | var | indexed | call | returned => cases hmade
    | presence => cases hspellable

/-- A value that can be spelled prints as the text of a script: the text is read, and evaluating what is read gives the value
again and registers nothing. -/
theorem values_print_as_scripts {v : Expr} (hv : v.IsSpellable fun name => scope.hasFunction name = true) :
    ∃ e, Expr.parse v.render = .ok e ∧
      ∀ output, ∃ v', scope.evaluate settings e output = (.ok v', output) ∧ v'.same v = true := by
  obtain ⟨e, hparse, hbare⟩ := Expr.parse_render_of_isSpellable (fun name => hscope.isName) hv
  obtain ⟨hvalue, v', hv', hsame⟩ := remakes_spelled hscope hv e hbare
  refine ⟨e, hparse, fun output => ⟨v', ?_, Expr.same_iff.mpr hsame⟩⟩
  rw [evaluate, Expr.evaluate, Expr.ifValue_of_isValue hvalue, hv']
  rfl

omit hscope

/-- A scope with one function. -/
def withFunction : Scope :=
  Scope.global.define ⟨"f", [], [], {}⟩

/-- A value with every kind of node that a script can spell. -/
def everyKind : Expr :=
  .array {}
    [.integer {} (-7), .text {} "a\"b\\", .boolean {} true, .functionRef {} "f", .functionRef {} "byte",
      .dictionary {}
        [(.text {} "k", .memory {} ⟨.previous, .word, 0xABCDEF12⟩), (.integer {} 1, .array {} [.memory {} (.ofSize .byte 1)])],
      .logical {} .or
        (some (.logical {} .and
          (some (.modified {} (.repeated 3)
            (.comparison {} .less
              (.arithmetic {} .subtract (.memory {} ⟨.decimal, .byte, 16⟩) (.integer {} (-2))) (.integer {} 5))))
          (.alwaysTrue {})))
        (.logical {} .not none (.modified {} (.repeated 1) (.boolean {} false))),
      .tally {} 4
        [.modified {} .deduct (.alwaysFalse {}), .comparison {} .equal (.memory {} ⟨.prior, .bit3, 32⟩) (.integer {} 0)]]

/-- A value with nodes of every kind, in a script that defines a function. -/
theorem values_print_as_scripts_every_kind :
    everyKind.render =
        "[-7, \"a\\\"b\\\\\", true, f, byte, \x7b\"k\": prev(word(0xABCDEF12)), 1: [byte(0x000001)]\x7d, " ++
        "repeated(3, bcd(byte(0x000010)) - -2 < 5) && always_true() || !once(false), " ++
        "tally(4, deduct(always_false()), prior(bit3(0x000020)) == 0)]" ∧
      ∃ e, Expr.parse everyKind.render = .ok e ∧
        ∀ output, ∃ v', withFunction.evaluate {} e output = (.ok v', output) ∧ v'.same everyKind = true := by
  have hfind : ∀ name, withFunction.function? name = if name = "f" then some ⟨"f", [], [], {}⟩ else none := by
    intro name
    change (Bindings.insert "f" _ {}).find? name = _
    rw [Bindings.find?_insert]
    rfl
  have hscope : withFunction.HasFunctionsOnly := by
    refine ⟨fun _ => rfl, fun name hname => ?_, fun name hname => ?_⟩
    · have hne : name ≠ "f" := by
        rintro rfl
        revert hname
        decide +kernel
      rw [hfind, if_neg hne]
    · by_cases heq : name = "f"
      · subst heq
        decide
      · rw [hfind, if_neg heq] at hname
        cases hname
  exact ⟨by decide +kernel, values_print_as_scripts hscope (by decide +kernel)⟩

end Scope

end TriggerScript
