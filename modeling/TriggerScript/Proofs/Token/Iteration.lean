import TriggerScript.Proofs.Token.Words

/-!
# Items of a script, one after the other

Reading goes on behind a fault. Every item but the end of the script passes at least one character, with one exception: a
character that begins no token is not passed, so reading finds it again and again. A script without such a character has
finitely many items, and the others repeat the first one of them forever.
-/

namespace TriggerScript

/-- Whether an item is the end of the script. -/
def isEnding : Except LexError Token → Bool
  | .ok token => token.kind = .endOfScript
  | .error _ => false

/-- Whether an item is a character that begins no token. -/
def isStuck : Except LexError Token → Bool
  | .ok _ => false
  | .error error => error.fault.isUnexpected

/-- The items of a script are those of a list, at most one more than it has characters. -/
def ItemsEnd (source : String) : Prop :=
  ∃ items : List (Except LexError Token), items.length ≤ source.length + 1 ∧
    ∀ limit, tokenItems limit source = items.take limit

/-- The items of a script are those of a list and then the same character that begins no token, forever. -/
def ItemsRepeat (source : String) : Prop :=
  ∃ (items : List (Except LexError Token)) (error : LexError), error.fault.isUnexpected ∧
    ∀ limit, tokenItems limit source = items.take limit ++ List.replicate (limit - items.length) (.error error)

namespace Cursor

variable {cursor after : Cursor} {item : Except LexError Token}

/-- An item passes characters, unless it is the end of the script or a character that begins no token. -/
theorem Step.passes (h : cursor.Step item after) (hending : isEnding item = false) (hstuck : isStuck item = false) :
    ∃ text, text ≠ [] ∧ cursor.rest = text ++ after.rest := by
  have hskip : ∀ {gap text rest : List Char}, text ≠ [] → cursor.rest = gap ++ (text ++ rest) →
      ∃ text', text' ≠ [] ∧ cursor.rest = text' ++ ((cursor.skip gap.length).skip text.length).rest := by
    intro gap text rest hne hrest
    refine ⟨gap ++ text, fun hnil => hne (List.append_eq_nil_iff.mp hnil).2, ?_⟩
    rw [rest_skip, rest_skip, hrest, List.drop_left, List.drop_left, List.append_assoc]
  cases h with
  | comment hrest => exact ⟨cursor.rest, hrest, by rw [rest_skip, List.drop_length, List.append_nil]⟩
  | ending _ _ => simp [isEnding] at hending
  | word hrest hfirst _ hword _ =>
    subst hfirst
    exact hskip hword.ne_nil hrest
  | fault hrest hfirst hne _ =>
    subst hfirst
    exact hskip hne hrest
  | unexpected _ _ _ => simp [isStuck, LexFault.isUnexpected] at hstuck

/-- The first item, and those behind it if it is not the end of the script. -/
theorem items_succ (h : cursor.next = (item, after)) (limit : Nat) :
    cursor.items (limit + 1) = item :: if isEnding item then [] else after.items limit := by
  rw [items, h]
  cases item with
  | ok token => simp [isEnding]
  | error error => rfl

/-- A step that leads back to its cursor is taken forever. -/
theorem items_of_next_self (h : cursor.next = (item, cursor)) (hending : isEnding item = false) (limit : Nat) :
    cursor.items limit = List.replicate limit item := by
  induction limit with
  | zero => rfl
  | succ limit ih =>
    rw [items_succ h, hending, ih]
    rfl

/-- A character that begins no token is found again behind it. -/
theorem next_of_isStuck (h : cursor.next = (item, after)) (hstuck : isStuck item) :
    after.next = (item, after) ∧ ∃ error, item = .error error ∧ error.fault.isUnexpected := by
  cases step_of_next h with
  | comment _ | ending _ _ | word _ _ _ _ _ => cases hstuck
  | fault _ _ _ hfault =>
    rw [isStuck, hfault] at hstuck
    cases hstuck
  | unexpected _ _ hagain => exact ⟨hagain, _, rfl, rfl⟩

/-- What the items behind a cursor are: at most one for each character, none of them a character that begins no token, and
then either the end of the script or such a character, forever. -/
theorem items_cases (cursor : Cursor) :
    ∃ items : List (Except LexError Token), items.length ≤ cursor.rest.length ∧ (∀ item ∈ items, isStuck item = false) ∧
      ((∃ last, isEnding last ∧ ∀ limit, cursor.items limit = (items ++ [last]).take limit) ∨
        ∃ error : LexError, error.fault.isUnexpected ∧
          ∀ limit, cursor.items limit = items.take limit ++ List.replicate (limit - items.length) (.error error)) := by
  induction hlength : cursor.rest.length using Nat.strongRecOn generalizing cursor with
  | ind length ih =>
    generalize hnext : cursor.next = step
    obtain ⟨item, after⟩ := step
    have hsucc := items_succ hnext
    cases hending : isEnding item with
    | true =>
      refine ⟨[], Nat.zero_le _, List.forall_mem_nil _, .inl ⟨item, hending, fun limit => ?_⟩⟩
      cases limit with
      | zero => rfl
      | succ limit => simp [hsucc, hending]
    | false =>
      cases hstuck : isStuck item with
      | true =>
        obtain ⟨hagain, error, rfl, herror⟩ := next_of_isStuck hnext hstuck
        refine ⟨[], Nat.zero_le _, List.forall_mem_nil _, .inr ⟨error, herror, fun limit => ?_⟩⟩
        cases limit with
        | zero => rfl
        | succ limit => simp [hsucc, hending, items_of_next_self hagain hending, List.replicate_succ]
      | false =>
        obtain ⟨text, hne, hrest⟩ := (step_of_next hnext).passes hending hstuck
        have hpos := List.length_pos_iff.mpr hne
        rw [hrest, List.length_append] at hlength
        obtain ⟨items, hitems, hothers, hrun⟩ := ih after.rest.length (by omega) after rfl
        refine ⟨item :: items, by rw [List.length_cons]; omega, List.forall_mem_cons.mpr ⟨hstuck, hothers⟩, ?_⟩
        rcases hrun with ⟨last, hlast, hrun⟩ | ⟨error, herror, hrun⟩
        · refine .inl ⟨last, hlast, fun limit => ?_⟩
          cases limit with
          | zero => rfl
          | succ limit => simp [hsucc, hending, hrun]
        · refine .inr ⟨error, herror, fun limit => ?_⟩
          cases limit with
          | zero => simp [Cursor.items]
          | succ limit => simp [hsucc, hending, hrun]

end Cursor

variable {source : String}

theorem not_isStuck_of_isEnding {item : Except LexError Token} (h : isEnding item) : isStuck item = false := by
  cases item with
  | ok token => rfl
  | error error => cases h

/-- Without a character that begins no token among them, the items end. -/
theorem itemsEnd_of_not_isStuck (h : ∀ limit, ∀ item ∈ tokenItems limit source, isStuck item = false) :
    ItemsEnd source := by
  obtain ⟨items, hlength, -, ⟨last, -, hrun⟩ | ⟨error, herror, hrun⟩⟩ := Cursor.items_cases (Cursor.atStart source)
  · refine ⟨items ++ [last], ?_, hrun⟩
    rw [List.length_append, List.length_singleton]
    exact Nat.succ_le_succ (String.length_toList ▸ hlength)
  · have hmem : .error error ∈ tokenItems (items.length + 1) source := by
      rw [tokenItems, hrun]
      simp
    exact absurd herror (by simpa [isStuck] using h _ _ hmem)

/-- With a character that begins no token among them, the items repeat one. -/
theorem itemsRepeat_of_isStuck {limit : Nat} {item : Except LexError Token} (hmem : item ∈ tokenItems limit source)
    (hstuck : isStuck item) : ItemsRepeat source := by
  obtain ⟨items, -, hothers, ⟨last, hlast, hrun⟩ | ⟨error, herror, hrun⟩⟩ :=
    Cursor.items_cases (Cursor.atStart source)
  · rw [tokenItems, hrun] at hmem
    rcases List.mem_append.mp (List.mem_of_mem_take hmem) with hmem | hmem
    · exact absurd hstuck (by simp [hothers item hmem])
    · rw [List.mem_singleton.mp hmem, not_isStuck_of_isEnding hlast] at hstuck
      cases hstuck
  · exact ⟨items, error, herror, hrun⟩

theorem ItemsRepeat.exists_isStuck (h : ItemsRepeat source) : ∃ limit, ∃ item ∈ tokenItems limit source, isStuck item := by
  obtain ⟨items, error, herror, hrun⟩ := h
  exact ⟨items.length + 1, .error error, by simp [hrun], herror⟩

/-- Items that repeat are as many as are asked for, so they do not end. -/
theorem ItemsRepeat.not_itemsEnd (h : ItemsRepeat source) : ¬ ItemsEnd source := by
  rintro ⟨ended, -, hended⟩
  obtain ⟨items, error, -, hrun⟩ := h
  have hlength := congrArg List.length ((hended (ended.length + 1)).symm.trans (hrun (ended.length + 1)))
  simp only [List.length_take, List.length_append, List.length_replicate] at hlength
  omega

/-- An item that is not the end of the script passes at least one character, unless it is a character that begins no token.
The items of a script end if and only if there is no such character among them, and otherwise repeat the first one
forever. -/
theorem items_end_unless_stuck (source : String) :
    (∀ cursor item after, Cursor.next cursor = (item, after) → isEnding item = false → isStuck item = false →
        ∃ text, text ≠ [] ∧ cursor.rest = text ++ after.rest) ∧
      (ItemsEnd source ↔ ∀ limit, ∀ item ∈ tokenItems limit source, isStuck item = false) ∧
      (ItemsRepeat source ↔ ∃ limit, ∃ item ∈ tokenItems limit source, isStuck item) := by
  refine ⟨fun cursor item after hnext => (Cursor.step_of_next hnext).passes, ?_, ?_⟩
  · refine ⟨fun hend limit item hmem => ?_, itemsEnd_of_not_isStuck⟩
    cases hstuck : isStuck item with
    | false => rfl
    | true => exact absurd hend (itemsRepeat_of_isStuck hmem hstuck).not_itemsEnd
  · exact ⟨ItemsRepeat.exists_isStuck, fun ⟨_, _, hmem, hstuck⟩ => itemsRepeat_of_isStuck hmem hstuck⟩

/-- A number with a letter in it is passed up to that letter, and the at sign is what the items then repeat. -/
theorem items_end_unless_stuck_sample :
    (∃ text, text ≠ [] ∧ "12ab @".toList = text ++ ['b', ' ', '@']) ∧ ItemsRepeat "12ab @" :=
  have h := items_end_unless_stuck "12ab @"
  ⟨h.1 (Cursor.atStart "12ab @") _ ⟨['b', ' ', '@'], 3, 1, 4⟩ rfl rfl rfl, h.2.2.mpr ⟨3, _, .tail _ (.tail _ (.head _)), rfl⟩⟩

/-- An at sign alone gives as many faults as are asked for, and never the end of the script. -/
theorem tokenItems_at_sign :
    (∀ limit, tokenItems limit "@" =
        List.replicate limit (.error { fault := .unexpectedCharacter '@', span := ⟨0, 0, 1, 1⟩ })) ∧
      ¬ ItemsEnd "@" := by
  have hfirst : .error { fault := .unexpectedCharacter '@', span := ⟨0, 0, 1, 1⟩ } ∈ tokenItems 1 "@" := List.Mem.head _
  exact ⟨Cursor.items_of_next_self rfl rfl, (itemsRepeat_of_isStuck hfirst rfl).not_itemsEnd⟩

end TriggerScript
