import TriggerScript.Proofs.Wire.Reading

/-!
# Colons in triggers and values

The only colon of a condition stands behind the letter of its flag and in front of an operand. So no two colons of a written
trigger or value stand side by side, and none begins or ends it. For the same reason no text that ends in a colon is read as
a trigger or a value.
-/

namespace TriggerScript

/-! ## Colons that are written -/

namespace Text

/-- Whether every colon of a text is followed by a character that is none. -/
def colonsApart : List Char → Bool
  | [] => true
  | c :: rest => (c != ':' || rest.head?.any (· != ':')) && colonsApart rest

variable {text text' : List Char}

theorem colonsApart_cons {c : Char} :
    colonsApart (c :: text) ↔ (c = ':' → ∃ next rest, text = next :: rest ∧ next ≠ ':') ∧ colonsApart text := by
  by_cases hc : c = ':'
  · cases text <;> simp [colonsApart, hc]
  · simp [colonsApart, hc]

theorem colonsApart_tail {c : Char} (h : colonsApart (c :: text)) : colonsApart text :=
  (colonsApart_cons.mp h).2

/-- Any other character may stand anywhere. -/
theorem colonsApart_cons_of_ne {c : Char} (hc : c ≠ ':') (h : colonsApart text) : colonsApart (c :: text) :=
  colonsApart_cons.mpr ⟨fun heq => absurd heq hc, h⟩

theorem colonsApart_append (h : colonsApart text) (h' : colonsApart text') : colonsApart (text ++ text') := by
  induction text with
  | nil => exact h'
  | cons c text ih =>
    rw [colonsApart_cons] at h
    rw [List.cons_append, colonsApart_cons]
    refine ⟨fun hc => ?_, ih h.2⟩
    obtain ⟨next, rest, rfl, hnext⟩ := h.1 hc
    exact ⟨next, rest ++ text', rfl, hnext⟩

/-- Where there are no colons, they are apart. -/
theorem colonsApart_of_notMem (h : ':' ∉ text) : colonsApart text := by
  induction text with
  | nil => rfl
  | cons c text ih =>
    rw [List.mem_cons, not_or] at h
    exact colonsApart_cons_of_ne (Ne.symm h.1) (ih h.2)

/-- A colon may stand in front of a text that begins with another character. -/
theorem colonsApart_colon {c : Char} (hc : c ≠ ':') (h : colonsApart (c :: text)) : colonsApart (':' :: c :: text) :=
  colonsApart_cons.mpr ⟨fun _ => ⟨c, text, rfl, hc⟩, h⟩

/-- Digits are no colons. -/
theorem isDigit_colon (base : Nat) : isDigit base ':' = false :=
  rfl

/-- There is no colon in digits. -/
theorem Spells.colon_notMem {base n : Nat} (h : Spells base text n) : ':' ∉ text :=
  fun hmem => Bool.false_ne_true ((isDigit_colon base).symm.trans (h.all_digits _ hmem))

end Text

/-- There is no colon in an operand. -/
theorem Operand.Spelled.colon_notMem {operand : Operand} {text : List Char} (h : operand.Spelled text) : ':' ∉ text := by
  cases h with
  | decimal hdigits => exact hdigits.colon_notMem
  | hex hmark hdigits => rcases hmark with rfl | rfl <;> simp [hdigits.colon_notMem]
  | @read mode size address digits x letter hx hletter hdigits =>
    have hcolon : ':' ≠ letter := by
      rintro rfl
      cases hletter
    rcases hx with rfl | rfl <;> cases mode <;> simp [ReadMode.letter?, hcolon, hdigits.colon_notMem]
  | @wordRead mode address digits x hx hdigits =>
    rcases hx with rfl | rfl <;> cases mode <;> simp [ReadMode.letter?, hdigits.colon_notMem]

/-- A flag is written as nothing, or as a letter and a colon. -/
theorem Flag.toList_wire (flag : Flag) :
    flag.wire.toList = [] ∨ ∃ letter, letter ≠ ':' ∧ flag.wire.toList = [letter, ':'] := by
  cases flag with
  | plain => exact .inl rfl
  | _ =>
    refine .inr ⟨_, ?_, rfl⟩
    decide

/-- No separator of groups is a colon. -/
theorem Trigger.ne_colon_of_isSeparator {c : Char} (h : isSeparator c) : c ≠ ':' := by
  rintro rfl
  exact absurd h (by decide)

/-- There is no colon in an operator. -/
theorem Operator.colon_notMem (op : Operator) : ':' ∉ op.spelling.toList := by
  cases op with
  | compare op => cases op <;> decide
  | multiply | divide => decide

namespace Condition

/-- There is no colon in the right side of a condition. -/
theorem RightSpelled.colon_notMem {right? : Option (Operator × Operand)} {text : List Char} (h : RightSpelled right? text) :
    ':' ∉ text := by
  cases h with
  | none => simp
  | @some op operand text hoperand => exact List.not_mem_append op.colon_notMem hoperand.colon_notMem

/-- There is no colon in a hit count. -/
theorem HitsSpelled.colon_notMem {hits : UInt32} {text : List Char} (h : HitsSpelled hits text) : ':' ∉ text := by
  cases h with
  | none => simp
  | count hdigits => simp [hdigits.colon_notMem]

/-- The colon behind the letter of a flag is followed by an operand, and no other colon is written. -/
theorem Spelled.colonsApart {condition : Condition} {text : List Char} (h : condition.Spelled text) :
    Text.colonsApart (':' :: text) := by
  obtain ⟨hleft, hright, hhits, _⟩ := h
  have hrest := Text.colonsApart_of_notMem (List.not_mem_append hleft.colon_notMem
    (List.not_mem_append hright.colon_notMem hhits.colon_notMem))
  obtain ⟨c, cs, rfl, hc⟩ := hleft.head
  have hoperand := Text.colonsApart_colon (forall_beginsOperand (P := fun c => c ≠ ':') (by decide) hc) hrest
  rcases condition.flag.toList_wire with hflag | ⟨letter, hletter, hflag⟩
  · rw [hflag]
    exact hoperand
  · rw [hflag]
    exact Text.colonsApart_colon hletter (Text.colonsApart_cons_of_ne hletter hoperand)

end Condition

namespace Trigger

/-- The colons of groups are apart, also behind another colon. -/
theorem GroupsSpelled.colonsApart {groups : List (List Condition)} {text : List Char} (h : GroupsSpelled groups text) :
    Text.colonsApart (':' :: text) := by
  induction h with
  | last hcondition => exact hcondition.colonsApart
  | link hcondition _ ih =>
    exact Text.colonsApart_append hcondition.colonsApart
      (Text.colonsApart_cons_of_ne (by decide) (Text.colonsApart_tail ih))
  | separate hcondition hseparator _ ih =>
    exact Text.colonsApart_append hcondition.colonsApart
      (Text.colonsApart_cons_of_ne (ne_colon_of_isSeparator hseparator) (Text.colonsApart_tail ih))

/-- A trigger that is not empty may stand behind a colon. -/
theorem Spelled.colonsApart {trigger : Trigger} {text : List Char} (h : trigger.Spelled text) (hne : trigger ≠ {}) :
    Text.colonsApart (':' :: text) := by
  cases h with
  | empty => exact absurd rfl hne
  | alternatives hseparator hgroups =>
    have hcolon := ne_colon_of_isSeparator hseparator
    exact Text.colonsApart_colon hcolon
      (Text.colonsApart_cons_of_ne hcolon (Text.colonsApart_tail hgroups.colonsApart))
  | core hgroups => exact hgroups.colonsApart

end Trigger

/-- There is no colon in a number. -/
theorem colon_notMem_toString (n : Int) : ':' ∉ (toString n).toList := by
  have hdigits : ∀ n : Nat, ':' ∉ Nat.toDigits 10 n :=
    fun n => (Text.spells_toDigits (by decide) (by decide) n).colon_notMem
  rcases Int.lt_or_le n 0 with hneg | hnonneg
  · rw [toList_toString_of_neg hneg]
    simp [hdigits]
  · rw [toList_toString_of_nonneg hnonneg]
    exact hdigits _

/-- No colon is written in a term. -/
theorem ValueTerm.colon_notMem (term : ValueTerm) : ':' ∉ term.wire.toList := by
  cases term with
  | scaled operand multiplier =>
    have hoperand := operand.spelled_wire.colon_notMem
    by_cases hone : multiplier = 1
    · subst hone
      rw [Value.toList_wire_one]
      exact hoperand
    · rw [Value.toList_wire_scaled operand hone]
      exact List.not_mem_append hoperand (List.not_mem_cons_of_ne_of_not_mem (by decide) (colon_notMem_toString _))
  | constant value =>
    rw [Value.toList_wire_constant]
    exact List.not_mem_cons_of_ne_of_not_mem (by decide) (colon_notMem_toString _)

/-- A term is written with at least one character. -/
theorem ValueTerm.toList_wire_ne_nil (term : ValueTerm) : term.wire.toList ≠ [] := by
  cases term with
  | scaled operand multiplier =>
    obtain ⟨c, cs, hcs, _⟩ := operand.spelled_wire.head
    by_cases hone : multiplier = 1
    · subst hone
      rw [Value.toList_wire_one, hcs]
      exact List.cons_ne_nil c cs
    · rw [Value.toList_wire_scaled operand hone]
      simp
  | constant value =>
    rw [Value.toList_wire_constant]
    exact List.cons_ne_nil _ _

/-- A value with a term may stand behind a colon. -/
theorem Value.colonsApart_wire {value : Value} (hne : value.terms ≠ []) : Text.colonsApart (':' :: value.wire.toList) := by
  obtain ⟨terms⟩ := value
  induction terms with
  | nil => exact absurd rfl hne
  | cons term terms ih =>
    have hterm : Text.colonsApart (':' :: term.wire.toList) := by
      obtain ⟨c, cs, hcs⟩ := List.exists_cons_of_ne_nil term.toList_wire_ne_nil
      have hcolon := term.colon_notMem
      rw [hcs] at hcolon ⊢
      exact Text.colonsApart_colon (fun hc => hcolon (hc ▸ List.mem_cons_self)) (Text.colonsApart_of_notMem hcolon)
    cases terms with
    | nil => simpa [wire] using hterm
    | cons next terms =>
      rw [toList_wire_cons_cons]
      exact Text.colonsApart_append hterm
        (Text.colonsApart_cons_of_ne (by decide) (Text.colonsApart_tail (ih (List.cons_ne_nil _ _))))

/-! ## Colons that are read -/

/-- A colon that stands before another character is not the last one. -/
theorem Text.getLast?_ne_colon {text : List Char} (h : colonsApart text) : text.getLast? ≠ some ':' := by
  induction text with
  | nil => simp
  | cons c text ih =>
    obtain ⟨hcolon, htext⟩ := colonsApart_cons.mp h
    cases text with
    | nil =>
      intro hlast
      obtain ⟨_, _, hnil, _⟩ := hcolon (Option.some.inj hlast)
      cases hnil
    | cons c' text =>
      rw [List.getLast?_cons_cons]
      exact ih htext

/-- No text that ends in a colon is read as a trigger. -/
theorem Trigger.getLast?_ne_colon {text : String} {trigger : Trigger} (h : ofWire text = .ok trigger) :
    text.toList.getLast? ≠ some ':' := by
  by_cases hempty : trigger = {}
  · subst hempty
    rw [toList_eq_nil_of_ofWire h]
    exact Text.getLast?_ne_colon rfl
  · exact Text.getLast?_ne_colon (Text.colonsApart_tail ((spelled_of_ofWire h).colonsApart hempty))

/-- There is no colon in a signed number. -/
theorem Text.SpellsSigned.colon_notMem {value : Int64} {text : List Char} (h : SpellsSigned value text) : ':' ∉ text := by
  cases h with
  | plain hdigits _ => exact hdigits.colon_notMem
  | negated hdigits _ => simp [hdigits.colon_notMem]

/-- There is no colon in a term of a value. -/
theorem ValueTerm.Spelled.colon_notMem {term : ValueTerm} {text : List Char} (h : term.Spelled text) : ':' ∉ text := by
  cases h with
  | constant hmark hvalue => rcases hmark with rfl | rfl <;> simp [hvalue.colon_notMem]
  | scaled hoperand hfactor => simp [hoperand.colon_notMem, hfactor.colon_notMem]
  | unscaled hoperand => exact hoperand.colon_notMem

/-- There is no colon in the terms of a value. -/
theorem Value.TermsSpelled.colon_notMem {terms : List ValueTerm} {text : List Char} (h : TermsSpelled terms text) :
    ':' ∉ text := by
  induction h with
  | last hterm => exact hterm.colon_notMem
  | link hterm _ ih => simp [hterm.colon_notMem, ih]

/-- No text that ends in a colon is read as a value. -/
theorem Value.getLast?_ne_colon {text : String} {value : Value} (h : ofWire text = .ok value) :
    text.toList.getLast? ≠ some ':' :=
  fun hlast => (termsSpelled_of_ofWire h).colon_notMem (List.mem_of_getLast? hlast)

end TriggerScript
