import TriggerScript.Expr.Basic

/-!
# Trees without their marks

What holds of a tree whenever it holds of the immediate parts of the tree holds of all trees. Two trees are the same if
they are equal once all marks are taken off.
-/

namespace TriggerScript

namespace Expr

/-! ## Induction over parts -/

/-- A part of a tree is smaller than the tree. -/
theorem sizeOf_lt_of_mem_children {e part : Expr} (h : part ∈ e.children) : sizeOf part < sizeOf e := by
  cases e with
  | array mark entries =>
    have hlt := List.sizeOf_lt_of_mem (show part ∈ entries from h)
    simp only [array.sizeOf_spec]
    omega
  | call mark name args =>
    have hlt := List.sizeOf_lt_of_mem (show part ∈ args from h)
    simp only [call.sizeOf_spec]
    omega
  | tally mark target entries =>
    have hlt := List.sizeOf_lt_of_mem (show part ∈ entries from h)
    simp only [tally.sizeOf_spec]
    omega
  | dictionary mark entries =>
    obtain ⟨⟨key, value⟩, hentry, hpart⟩ := List.mem_flatMap.mp h
    have hlt := List.sizeOf_lt_of_mem hentry
    simp only [dictionary.sizeOf_spec, Prod.mk.sizeOf_spec] at hlt ⊢
    have hpart : part = key ∨ part = value := by simpa using hpart
    rcases hpart with rfl | rfl <;> omega
  | logical mark op left right =>
    have hpart : part ∈ left.toList ++ [right] := h
    simp only [logical.sizeOf_spec]
    rcases List.mem_append.mp hpart with hpart | hpart
    · obtain rfl : left = some part := by simpa using hpart
      simp only [Option.some.sizeOf_spec]
      omega
    · rw [List.mem_singleton.mp hpart]
      omega
  | indexed mark left right | arithmetic mark op left right | comparison mark op left right =>
    have hpart : part = left ∨ part = right := by simpa [children] using h
    simp only [indexed.sizeOf_spec, arithmetic.sizeOf_spec, comparison.sizeOf_spec]
    rcases hpart with rfl | rfl <;> omega
  | returned mark value | modified mark modifier value | presence mark name display value =>
    obtain rfl : part = value := by simpa [children] using h
    simp only [returned.sizeOf_spec, modified.sizeOf_spec, presence.sizeOf_spec]
    omega
  | _ => cases h

/-- What carries over from the immediate parts of every tree to the tree holds of all trees. -/
theorem children_induction {P : Expr → Prop} (h : ∀ e, (∀ part ∈ e.children, P part) → P e) (e : Expr) : P e :=
  h e fun part hpart =>
    have := sizeOf_lt_of_mem_children hpart
    children_induction h part
termination_by sizeOf e

/-! ## Marks -/

mutual

/-- A tree without its marks. -/
def bare : Expr → Expr
  | .integer _ value => .integer {} value
  | .text _ value => .text {} value
  | .boolean _ value => .boolean {} value
  | .var _ name => .var {} name
  | .indexed _ base index => .indexed {} base.bare index.bare
  | .array _ entries => .array {} (bareList entries)
  | .dictionary _ entries => .dictionary {} (bareEntries entries)
  | .arithmetic _ op left right => .arithmetic {} op left.bare right.bare
  | .logical _ op left right => .logical {} op (bareOption left) right.bare
  | .comparison _ op left right => .comparison {} op left.bare right.bare
  | .call _ name args => .call {} name (bareList args)
  | .returned _ value => .returned {} value.bare
  | .functionRef _ name => .functionRef {} name
  | .memory _ read => .memory {} read
  | .modified _ modifier condition => .modified {} modifier condition.bare
  | .tally _ target entries => .tally {} target (bareList entries)
  | .alwaysTrue _ => .alwaysTrue {}
  | .alwaysFalse _ => .alwaysFalse {}
  | .presence _ name display value => .presence {} name display value.bare

/-- An operand that may be missing, without marks. -/
def bareOption : Option Expr → Option Expr
  | none => none
  | some e => some e.bare

/-- Trees without their marks. -/
def bareList : List Expr → List Expr
  | [] => []
  | e :: es => e.bare :: bareList es

/-- Keys and values without their marks. -/
def bareEntries : List (Expr × Expr) → List (Expr × Expr)
  | [] => []
  | (key, value) :: entries => (key.bare, value.bare) :: bareEntries entries

end

mutual

/-- Trees that are equal without their marks are the same. -/
theorem same_of_bare_eq : ∀ {e e' : Expr}, e.bare = e'.bare → e.same e'
  | .integer .., e', h | .text .., e', h | .boolean .., e', h | .var .., e', h | .functionRef .., e', h
  | .memory .., e', h | .alwaysTrue _, e', h | .alwaysFalse _, e', h => by
    cases e' <;> injection h
    simp [same, *]
  | .indexed .., e', h => by
    cases e' <;> injection h
    rename_i hbase hindex
    simp [same, same_of_bare_eq hbase, same_of_bare_eq hindex]
  | .array .., e', h => by
    cases e' <;> injection h
    rename_i hentries
    simp [same, allSame_of_bare_eq hentries]
  | .dictionary .., e', h => by
    cases e' <;> injection h
    rename_i hentries
    simp [same, entriesSame_of_bare_eq hentries]
  | .arithmetic .., e', h | .comparison .., e', h => by
    cases e' <;> injection h
    rename_i hop hleft hright
    simp [same, hop, same_of_bare_eq hleft, same_of_bare_eq hright]
  | .logical .., e', h => by
    cases e' <;> injection h
    rename_i hop hleft hright
    simp [same, hop, optionSame_of_bare_eq hleft, same_of_bare_eq hright]
  | .call .., e', h => by
    cases e' <;> injection h
    rename_i hname hargs
    simp [same, hname, allSame_of_bare_eq hargs]
  | .returned .., e', h => by
    cases e' <;> injection h
    rename_i hvalue
    simp [same, same_of_bare_eq hvalue]
  | .modified .., e', h => by
    cases e' <;> injection h
    rename_i hmodifier hcondition
    simp [same, hmodifier, same_of_bare_eq hcondition]
  | .tally .., e', h => by
    cases e' <;> injection h
    rename_i htarget hentries
    simp [same, htarget, allSame_of_bare_eq hentries]
  | .presence .., e', h => by
    cases e' <;> injection h
    rename_i hname hdisplay hvalue
    simp [same, hname, hdisplay, same_of_bare_eq hvalue]

theorem optionSame_of_bare_eq : ∀ {left left' : Option Expr}, bareOption left = bareOption left' → optionSame left left'
  | none, none, _ => by simp [optionSame]
  | some _, some _, h => by simp [optionSame, same_of_bare_eq (Option.some.inj h)]

theorem allSame_of_bare_eq : ∀ {es es' : List Expr}, bareList es = bareList es' → allSame es es'
  | [], [], _ => by simp [allSame]
  | _ :: _, _ :: _, h => by
    injection h with hfirst hothers
    simp [allSame, same_of_bare_eq hfirst, allSame_of_bare_eq hothers]

theorem entriesSame_of_bare_eq : ∀ {es es' : List (Expr × Expr)}, bareEntries es = bareEntries es' → entriesSame es es'
  | [], [], _ => by simp [entriesSame]
  | (_, _) :: _, (_, _) :: _, h => by
    injection h with hfirst hothers
    injection hfirst with hkey hvalue
    simp [entriesSame, same_of_bare_eq hkey, same_of_bare_eq hvalue, entriesSame_of_bare_eq hothers]

end

/-- A mark makes no difference. -/
@[simp] theorem bare_withMark (mark : Mark) (e : Expr) : (e.withMark mark).bare = e.bare := by
  cases e <;> rfl

@[simp] theorem bare_asUnit (e : Expr) : e.asUnit.bare = e.bare :=
  bare_withMark _ e

theorem bareList_eq (es : List Expr) : bareList es = es.map bare := by
  induction es with
  | nil => rfl
  | cons e es ih => rw [bareList, ih, List.map_cons]

theorem bareEntries_eq (es : List (Expr × Expr)) :
    bareEntries es = es.map fun entry => (entry.1.bare, entry.2.bare) := by
  induction es with
  | nil => rfl
  | cons entry es ih => rw [bareEntries, ih, List.map_cons]

theorem isValue_bare (e : Expr) : e.bare.isValue = e.isValue := by
  cases e <;> rfl

end Expr

end TriggerScript
