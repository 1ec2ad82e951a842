import TriggerScript.Proofs.Eval.Agreement
import TriggerScript.Proofs.Expr.Levels

/-!
# How values are spelled

A script has no literals for reads, modified conditions, tallies and the two fixed conditions: they print as the calls that
make them, and a reference prints as a name. `Expr.spelled` is the tree that a value prints as. The text of a value scans
into the tokens of this tree, so it is read as this tree.
-/

namespace TriggerScript

/-! ## The functions that make values -/

/-- A function is found by its name. -/
theorem Builtin.ofName?_name (builtin : Builtin) : ofName? builtin.name = some builtin := by
  cases builtin with
  | read size => cases size <;> decide +kernel
  | join joiner => cases joiner <;> decide +kernel
  | _ => decide +kernel

/-- Built-in functions have names that a script can spell. -/
theorem Builtin.isName_name (builtin : Builtin) : TriggerScript.isName builtin.name = true := by
  cases builtin with
  | read size => cases size <;> decide +kernel
  | join joiner => cases joiner <;> decide +kernel
  | _ => decide +kernel

/-- The function that modifies conditions in a way. -/
def Modifier.builtin : Modifier → Builtin
  | .repeated count => if count = 1 then .once else .repeated
  | .never => .never
  | .unless => .unless
  | .triggerWhen => .triggerWhen
  | .measured => .measured
  | .deduct => .deduct

/-- The function that gives a read a mode, if it needs one. -/
def ReadMode.builtin? : ReadMode → Option Builtin
  | .current => none
  | .previous => some .prev
  | .prior => some .prior
  | .decimal => some .bcd

namespace Expr

/-- An unsigned number as an integer. -/
def unsigned (n : UInt32) : Expr :=
  .integer {} (Int64.ofNat n.toNat)

/-- The call of a built-in function. -/
def callOf (mark : Mark) (builtin : Builtin) (args : List Expr) : Expr :=
  .call mark builtin.name args

/-- The calls that make a read. -/
def spelledRead (mark : Mark) (read : MemoryRead) : Expr :=
  let plain := callOf mark (.read read.size) [unsigned read.address]
  match read.mode.builtin? with
  | some builtin => callOf mark builtin [plain]
  | none => plain

/-- The arguments of the call that modifies a condition. -/
def modifierArguments (condition : Expr) : Modifier → List Expr
  | .repeated count => if count = 1 then [condition] else [unsigned count, condition]
  | _ => [condition]

mutual

/-- The tree that a value prints as. -/
def spelled : Expr → Expr
  | .functionRef mark name => .var mark name
  | .array mark entries => .array mark (spelledList entries)
  | .dictionary mark entries => .dictionary mark (spelledEntries entries)
  | .arithmetic mark op left right => .arithmetic mark op left.spelled right.spelled
  | .comparison mark op left right => .comparison mark op left.spelled right.spelled
  | .logical mark op left right => .logical mark op (spelledOption left) right.spelled
  | .memory mark read => spelledRead mark read
  | .modified mark modifier condition => callOf mark modifier.builtin (modifierArguments condition.spelled modifier)
  | .tally mark target entries => callOf mark .tally (unsigned target :: spelledList entries)
  | .alwaysTrue mark => callOf mark .alwaysTrue []
  | .alwaysFalse mark => callOf mark .alwaysFalse []
  | e => e

/-- The tree that an operand prints as, if there is one. -/
def spelledOption : Option Expr → Option Expr
  | none => none
  | some e => some e.spelled

/-- The trees that values print as. -/
def spelledList : List Expr → List Expr
  | [] => []
  | e :: es => e.spelled :: spelledList es

/-- The trees that the entries of a dictionary print as. -/
def spelledEntries : List (Expr × Expr) → List (Expr × Expr)
  | [] => []
  | (key, value) :: entries => (key.spelled, value.spelled) :: spelledEntries entries

end

theorem spelledList_eq (es : List Expr) : spelledList es = es.map spelled := by
  induction es with
  | nil => rfl
  | cons e es ih => rw [spelledList, ih, List.map_cons]

theorem spelledEntries_eq (entries : List (Expr × Expr)) :
    spelledEntries entries = entries.map fun entry => (entry.1.spelled, entry.2.spelled) := by
  induction entries with
  | nil => rfl
  | cons entry entries ih => rw [spelledEntries, ih, List.map_cons]

/-- Whether a node of a value is one that a call or a literal makes. -/
def isSpellable : Expr → Bool
  | .integer _ value => value ≠ Int64.minValue
  | .modified _ modifier condition => modifier ≠ .repeated 0 && condition.isCondition
  | .tally _ target entries => target ≠ 0 && !entries.isEmpty && entries.all isCondition
  | .presence .. => false
  | _ => true

/-- A value that can be spelled: evaluation makes its nodes, there is no least integer and no macro in it, counts are
positive, and what is modified or counted are conditions. -/
abbrev IsSpellable (defined : String → Prop) (v : Expr) : Prop :=
  v.Everywhere fun node => node.IsMade defined ∧ node.isSpellable = true

/-! ## Operands -/

/-- A value and its spelling bind equally tight. -/
theorem precedence_spelled (v : Expr) : v.spelled.precedence = v.precedence := by
  cases v with
  | arithmetic mark op left right => cases op <;> rfl
  | logical mark op left right => cases op <;> rfl
  | memory mark read =>
    rw [spelled, spelledRead]
    cases read.mode <;> rfl
  | _ => rfl

/-- A value and its spelling are put in parentheses in the same places. -/
theorem isGrouped_spelled (v : Expr) : v.spelled.isGrouped = v.isGrouped := by
  cases v with
  | memory mark read =>
    rw [spelled, spelledRead]
    cases read.mode <;> rfl
  | _ => rfl

/-- A value and its spelling stand in parentheses in the same places. -/
theorem PrintsAs.spelledOperand {v : Expr} {text : String} (h : PrintsAs text v.spelled.tokens) (least : Nat) :
    PrintsAs (v.operandText least text) (v.spelled.operandTokens least v.spelled.tokens) := by
  have hoperand := h.operand (e := v.spelled) least
  rwa [operandText, isGrouped_spelled, precedence_spelled] at hoperand

/-! ## Calls -/

/-- A number of 32 bits is the same number in 64 bits. -/
theorem toInt_unsigned (n : UInt32) : (Int64.ofNat n.toNat).toInt = n.toNat := by
  have hlt := n.toNat_lt
  rw [← Int64.ofInt_eq_ofNat]
  exact Int64.toInt_ofInt_of_le (by omega) (by omega)

/-- An address or a count is one token. -/
theorem tokens_unsigned (n : UInt32) : (unsigned n).tokens = [.integer (Int64.ofNat n.toNat)] := by
  have hnonneg : ¬ Int64.ofNat n.toNat < 0 := by
    rw [Int64.lt_iff_toInt_lt, toInt_unsigned]
    exact Int.not_lt.mpr (Int.natCast_nonneg _)
  rw [unsigned, tokens, if_neg hnonneg]

/-- A number of 32 bits fits into 64 bits. -/
theorem toNat_le_maxInt64 (n : UInt32) : n.toNat ≤ Text.maxInt64 := by
  have hlt := n.toNat_lt
  unfold Text.maxInt64
  omega

/-- A number without a sign prints as its decimal digits. -/
theorem printsAs_unsigned (n : UInt32) : PrintsAs (toString n.toNat) (unsigned n).tokens := by
  rw [tokens_unsigned]
  exact printsAs_nat (toNat_le_maxInt64 n)

/-- An address prints as hexadecimal digits. -/
theorem printsAs_address (n : UInt32) :
    PrintsAs ("0x" ++ String.ofList ((Text.hexDigits 6 n.toNat).map Char.toUpper)) (unsigned n).tokens := by
  have hspells := (Text.spells_hexDigits 6 n.toNat).toUpper
  generalize (Text.hexDigits 6 n.toNat).map Char.toUpper = digits at hspells ⊢
  have htext : ("0x" ++ String.ofList digits).toList = '0' :: 'x' :: digits := by simp
  rw [tokens_unsigned]
  refine printsAs_word (by simp) (by simp [htext]) fun rest hrest => ?_
  rw [htext]
  exact isWord_hexDigits hspells (toNat_le_maxInt64 n) hrest

/-- A call prints as its name and, in parentheses, its arguments. -/
theorem printsAs_callOf {args : List Expr} {text : String} (mark : Mark) (builtin : Builtin)
    (h : ScansAs text (tokensList args)) : PrintsAs (builtin.name ++ "(" ++ text ++ ")") (callOf mark builtin args).tokens :=
  printsAs_call builtin.isName_name h

/-- A read prints as the calls that make it. -/
theorem printsAs_spelledRead (mark : Mark) (read : MemoryRead) : PrintsAs read.render (spelledRead mark read).tokens := by
  obtain ⟨mode, size, address⟩ := read
  have haddress : PrintsAs _ (callOf mark (.read size) [unsigned address]).tokens :=
    printsAs_callOf mark (.read size) (printsAs_address address).scans
  have hplain : size.functionName ++ "(0x" ++ String.ofList ((Text.hexDigits 6 address.toNat).map Char.toUpper) ++ ")" =
      (Builtin.read size).name ++ "(" ++
        ("0x" ++ String.ofList ((Text.hexDigits 6 address.toNat).map Char.toUpper)) ++ ")" := by
    rw [← String.toList_inj]
    simp [Builtin.name]
  rw [← hplain] at haddress
  cases mode with
  | current => exact haddress
  | previous => exact printsAs_callOf mark .prev haddress.scans
  | prior => exact printsAs_callOf mark .prior haddress.scans
  | decimal => exact printsAs_callOf mark .bcd haddress.scans

/-- A modified condition prints as the call that modifies it. -/
theorem printsAs_modified {condition : Expr} {text : String} (h : PrintsAs text condition.tokens) (mark : Mark)
    (modifier : Modifier) :
    PrintsAs (modifier.opening ++ text ++ ")")
      (callOf mark modifier.builtin (modifierArguments condition modifier)).tokens := by
  have hplain : ∀ {modifier : Modifier}, modifier.opening = modifier.builtin.name ++ "(" →
      modifierArguments condition modifier = [condition] →
      PrintsAs (modifier.opening ++ text ++ ")")
        (callOf mark modifier.builtin (modifierArguments condition modifier)).tokens := by
    intro modifier hopening hargs
    rw [hopening, hargs]
    exact printsAs_callOf mark modifier.builtin h.scans
  cases modifier with
  | repeated count =>
    by_cases hone : count = 1
    · subst hone
      exact hplain (by decide) rfl
    · have hargs : ScansAs (toString count.toNat ++ ", " ++ text) (tokensList [unsigned count, condition]) :=
        (printsAs_unsigned count).scans.separated h.scans rfl comma_eq
      have hopening : "repeated(" ++ toString count.toNat ++ ", " ++ text ++ ")" =
          Builtin.repeated.name ++ "(" ++ (toString count.toNat ++ ", " ++ text) ++ ")" := by
        rw [← String.toList_inj]
        simp [Builtin.name]
      rw [Modifier.opening, Modifier.builtin, modifierArguments, if_neg hone, if_neg hone, if_neg hone, hopening]
      exact printsAs_callOf mark .repeated hargs
  | _ => exact hplain (by decide) rfl

/-- A tally prints as the call that makes it. -/
theorem printsAs_tally {entries : List Expr} (hne : entries ≠ []) (h : ∀ e ∈ entries, ScansAs e.render e.spelled.tokens)
    (mark : Mark) (target : UInt32) :
    PrintsAs ("tally(" ++ toString target.toNat ++ ", " ++ renderList entries ++ ")")
      (callOf mark .tally (unsigned target :: spelledList entries)).tokens := by
  have hargs : ScansAs (toString target.toNat ++ ", " ++ renderList entries)
      (tokensList (unsigned target :: spelledList entries)) := by
    have hall := (printsAs_unsigned target).scans.separated (scansAs_renderList_map h) rfl comma_eq
    obtain ⟨first, others, rfl⟩ := List.exists_cons_of_ne_nil hne
    rw [spelledList_eq]
    exact hall
  have htext : "tally(" ++ toString target.toNat ++ ", " ++ renderList entries ++ ")" =
      Builtin.tally.name ++ "(" ++ (toString target.toNat ++ ", " ++ renderList entries) ++ ")" := by
    rw [← String.toList_inj]
    simp [Builtin.name]
  rw [htext]
  exact printsAs_callOf mark .tally hargs

/-- A call without arguments. -/
theorem printsAs_nullary (mark : Mark) (builtin : Builtin) :
    PrintsAs (builtin.name ++ "()") (callOf mark builtin []).tokens := by
  have htext : builtin.name ++ "()" = builtin.name ++ "(" ++ "" ++ ")" := by
    rw [← String.toList_inj]
    simp
  rw [htext]
  exact printsAs_callOf mark builtin fun rest following hrest _ => hrest

/-- An address or a count can be written and is a value. -/
theorem isSource_unsigned (n : UInt32) : (unsigned n).isSource = true ∧ (unsigned n).isValue = true := by
  refine ⟨?_, rfl⟩
  have hne : Int64.ofNat n.toNat ≠ Int64.minValue := by
    intro heq
    have htoInt := toInt_unsigned n
    rw [heq, Int64.toInt_minValue] at htoInt
    omega
  exact decide_eq_true hne

/-- A call can be written and is a value if its arguments can and are. -/
theorem isSource_callOf {args : List Expr} (mark : Mark) (builtin : Builtin)
    (h : ∀ arg ∈ args, arg.isSource = true ∧ arg.isValue = true) :
    (callOf mark builtin args).isSource = true ∧ (callOf mark builtin args).isValue = true := by
  refine ⟨?_, rfl⟩
  rw [callOf, isSource, builtin.isName_name, allSource_iff.mpr h]
  rfl

/-- The spelling of a read can be written and is a value. -/
theorem isSource_spelledRead (mark : Mark) (read : MemoryRead) :
    (spelledRead mark read).isSource = true ∧ (spelledRead mark read).isValue = true := by
  have hplain := isSource_callOf mark (.read read.size) (List.forall_mem_singleton.mpr (isSource_unsigned read.address))
  unfold spelledRead
  dsimp only
  split
  · exact isSource_callOf mark _ (List.forall_mem_singleton.mpr hplain)
  · exact hplain

/-- What is modified stays an argument of the call. -/
theorem forall_modifierArguments {p : Expr → Prop} (hunsigned : ∀ n, p (unsigned n)) {condition : Expr} (h : p condition)
    (modifier : Modifier) : ∀ arg ∈ modifierArguments condition modifier, p arg := by
  unfold modifierArguments
  split
  · split
    · exact List.forall_mem_singleton.mpr h
    · exact List.forall_mem_cons.mpr ⟨hunsigned _, List.forall_mem_singleton.mpr h⟩
  · exact List.forall_mem_singleton.mpr h

/-! ## Values -/

section Values

variable {defined : String → Prop} (hdefined : ∀ name, defined name → isName name = true)
include hdefined

/-- A value that can be spelled prints as the tokens of its spelling. -/
theorem printsAs_spelled {v : Expr} (hv : v.IsSpellable defined) : PrintsAs v.render v.spelled.tokens := by
  induction v using children_induction with
  | h v ih =>
    have hpart : ∀ part ∈ v.children, PrintsAs part.render part.spelled.tokens :=
      fun part hmem => ih part hmem (hv.part hmem)
    obtain ⟨hmade, hspellable⟩ := hv.root
    cases v with
    | integer mark value => exact printsAs_render (e := .integer mark value) hspellable
    | text mark value => exact printsAs_render (e := .text mark value) rfl
    | boolean mark value => exact printsAs_render (e := .boolean mark value) rfl
    | functionRef mark name => exact printsAs_name (hdefined name hmade)
    | array mark entries =>
      have hlist := scansAs_renderList_map fun e hmem => (hpart e hmem).scans
      rw [render, spelled, tokens, spelledList_eq, String.append_assoc]
      exact hlist.printsAs_enclosed .leftBracket .rightBracket rfl rfl
    | dictionary mark entries =>
      have hentries := forall_children_dictionary.mp hpart
      have hlist : ScansAs (renderEntries entries)
          (tokensEntries (entries.map fun entry => (entry.1.spelled, entry.2.spelled))) :=
        scansAs_renderEntries_map fun entry hmem => ⟨(hentries entry hmem).1.scans, (hentries entry hmem).2.scans⟩
      rw [render, spelled, tokens, spelledEntries_eq, String.append_assoc]
      exact hlist.printsAs_enclosed .leftBrace .rightBrace rfl rfl
    | arithmetic mark op left right =>
      have hleft := hpart left (by simp [children])
      have hright := hpart right (by simp [children])
      have hbinding : (arithmetic mark op left.spelled right.spelled).precedence =
          (arithmetic mark op left right).precedence := precedence_spelled (arithmetic mark op left right)
      rw [render, spelled, tokens, hbinding, ← op.spelling_symbol]
      exact (hleft.spelledOperand _).binary (hright.spelledOperand _) op.symbol
    | comparison mark op left right =>
      have hleft := hpart left (by simp [children])
      have hright := hpart right (by simp [children])
      rw [render, spelled, tokens, ← op.spelling_symbol]
      exact (hleft.spelledOperand 5).binary (hright.spelledOperand 5) op.symbol
    | logical mark op left right =>
      have hright := hpart right (by simp [children])
      cases left with
      | none =>
        cases op with
        | not =>
          simp only [render, spelled, spelledOption, tokens]
          exact (hright.spelledOperand 3).negated
        | and | or => cases hmade
      | some left =>
        have hleft := hpart left (by simp [children])
        cases op with
        | not => cases hmade
        | and | or =>
          rw [render, spelled, spelledOption, tokens]
          exact (hleft.spelledOperand _).joined (hright.spelledOperand _) (by decide)
    | memory mark read => exact printsAs_spelledRead mark read
    | modified mark modifier condition => exact printsAs_modified (hpart condition (by simp [children])) mark modifier
    | tally mark target entries =>
      simp only [isSpellable, Bool.and_eq_true, Bool.not_eq_true', List.isEmpty_eq_false_iff] at hspellable
      exact printsAs_tally hspellable.1.2 (fun e hmem => (hpart e hmem).scans) mark target
    | alwaysTrue mark => exact printsAs_nullary mark .alwaysTrue
    | alwaysFalse mark => exact printsAs_nullary mark .alwaysFalse
    | var | indexed | call | returned => cases hmade
    | presence => cases hspellable

/-- The spelling of a value is a tree that a script can spell. -/
theorem isSource_spelled {v : Expr} (hv : v.IsSpellable defined) : v.spelled.isSource = true ∧ v.spelled.isValue = true := by
  induction v using children_induction with
  | h v ih =>
    have hpart : ∀ part ∈ v.children, part.spelled.isSource = true ∧ part.spelled.isValue = true :=
      fun part hmem => ih part hmem (hv.part hmem)
    obtain ⟨hmade, hspellable⟩ := hv.root
    cases v with
    | integer mark value => exact ⟨hspellable, rfl⟩
    | text | boolean => exact ⟨rfl, rfl⟩
    | functionRef mark name => exact ⟨hdefined name hmade, rfl⟩
    | array mark entries =>
      refine ⟨?_, rfl⟩
      rw [spelled, isSource, spelledList_eq, allSource_iff, List.forall_mem_map]
      exact hpart
    | dictionary mark entries =>
      have hentries := forall_children_dictionary.mp hpart
      refine ⟨?_, rfl⟩
      rw [spelled, isSource, spelledEntries_eq, entriesSource_iff, List.forall_mem_map]
      exact hentries
    | arithmetic mark op left right | comparison mark op left right =>
      refine ⟨?_, rfl⟩
      rw [spelled, isSource, (hpart left (by simp [children])).1, (hpart right (by simp [children])).1]
      rfl
    | logical mark op left right =>
      refine ⟨?_, rfl⟩
      have hright := (hpart right (by simp [children])).1
      cases left with
      | none =>
        cases op with
        | not => exact hright
        | and | or => cases hmade
      | some left =>
        have hleft := (hpart left (by simp [children])).1
        cases op with
        | not => cases hmade
        | and | or =>
          rw [spelled, spelledOption, isSource, hleft, hright]
          rfl
    | memory mark read => exact isSource_spelledRead mark read
    | modified mark modifier condition =>
      have hcondition := hpart condition (by simp [children])
      exact isSource_callOf mark modifier.builtin (forall_modifierArguments isSource_unsigned hcondition modifier)
    | tally mark target entries =>
      refine isSource_callOf mark .tally (List.forall_mem_cons.mpr ⟨isSource_unsigned target, ?_⟩)
      rw [spelledList_eq, List.forall_mem_map]
      exact hpart
    | alwaysTrue mark => exact isSource_callOf mark .alwaysTrue (List.forall_mem_nil _)
    | alwaysFalse mark => exact isSource_callOf mark .alwaysFalse (List.forall_mem_nil _)
    | var | indexed | call | returned => cases hmade
    | presence => cases hspellable

/-- The text of a value that can be spelled is read as its spelling. -/
theorem parse_render_of_isSpellable {v : Expr} (hv : v.IsSpellable defined) :
    ∃ e, parse v.render = .ok e ∧ e.bare = v.spelled.bare := by
  obtain ⟨e, hparse, hsame⟩ := parse_of_printsAs (isSource_spelled hdefined hv).1 (printsAs_spelled hdefined hv)
  exact ⟨e, hparse, same_iff.mp hsame⟩

end Values

end Expr

end TriggerScript
