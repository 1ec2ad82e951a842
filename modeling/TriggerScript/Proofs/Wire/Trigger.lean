import TriggerScript.Proofs.Wire.Condition
import TriggerScript.Trigger

/-!
# Triggers are read back

A trigger is well-formed if its alternatives are not empty and every condition but a source has a comparison. Well-formed
triggers are exactly those that are read back from what they are written as, and reading gives no others.
-/

namespace TriggerScript

/-- Spellings of conditions begin with no separator of groups. -/
theorem Condition.Spelled.head {condition : Condition} {text : List Char} (h : condition.Spelled text) :
    ∃ c cs, text = c :: cs ∧ Trigger.isSeparator c = false := by
  obtain ⟨hleft, _, _, _⟩ := h
  obtain ⟨c, cs, rfl, hc⟩ := hleft.head
  have hoperand := forall_beginsOperand (P := fun c => Trigger.isSeparator c = false) (by decide) hc
  cases condition.flag with
  | plain => exact ⟨c, _, rfl, hoperand⟩
  | _ => exact ⟨_, _, rfl, by decide⟩

namespace Trigger

/-- Whether a trigger is well-formed. -/
def isWellFormed (trigger : Trigger) : Bool :=
  trigger.groups.all (·.all Condition.isWellFormed) && trigger.alternatives.all (!·.isEmpty)

/-- The texts that spell groups of conditions, none of them empty. -/
inductive GroupsSpelled : List (List Condition) → List Char → Prop
  /-- One condition alone. -/
  | last {condition : Condition} {text : List Char} (hcondition : condition.Spelled text) :
    GroupsSpelled [[condition]] text
  /-- A condition and more of its group. -/
  | link {condition : Condition} {text : List Char} {group : List Condition} {groups : List (List Condition)}
    {rest : List Char} (hcondition : condition.Spelled text) (hrest : GroupsSpelled (group :: groups) rest) :
    GroupsSpelled ((condition :: group) :: groups) (text ++ '_' :: rest)
  /-- The last condition of a group and more groups. -/
  | separate {condition : Condition} {text : List Char} {separator : Char} {groups : List (List Condition)}
    {rest : List Char} (hcondition : condition.Spelled text) (hseparator : isSeparator separator)
    (hrest : GroupsSpelled groups rest) : GroupsSpelled ([condition] :: groups) (text ++ separator :: rest)

/-- The texts that spell a trigger. -/
inductive Spelled : Trigger → List Char → Prop
  /-- No condition at all. -/
  | empty : Spelled {} []
  /-- Alternatives behind a separator. -/
  | alternatives {separator : Char} {groups : List (List Condition)} {text : List Char}
    (hseparator : isSeparator separator) (hgroups : GroupsSpelled groups text) :
    Spelled { alternatives := groups } (separator :: text)
  /-- A core and any alternatives. -/
  | core {core : List Condition} {groups : List (List Condition)} {text : List Char}
    (hgroups : GroupsSpelled (core :: groups) text) : Spelled { core, alternatives := groups } text

/-! ### Written triggers are spelled -/

/-- Groups as they are written. -/
def groupsWire (groups : List (List Condition)) : String :=
  "$".intercalate (groups.map groupWire)

/-- Conditions of a group are written with underscores between them. -/
theorem groupsWire_cons_cons (condition next : Condition) (group : List Condition) (groups : List (List Condition)) :
    groupsWire ((condition :: next :: group) :: groups) =
      condition.wire ++ "_" ++ groupsWire ((next :: group) :: groups) := by
  have hgroup : groupWire (condition :: next :: group) = condition.wire ++ "_" ++ groupWire (next :: group) :=
    String.intercalate_cons_cons
  cases groups with
  | nil => simpa [groupsWire] using hgroup
  | cons group' groups => simp [groupsWire, hgroup, String.append_assoc]

/-- Behind the last condition of a group, a separator is written. -/
theorem groupsWire_singleton (condition : Condition) (group : List Condition) (groups : List (List Condition)) :
    groupsWire ([condition] :: group :: groups) = condition.wire ++ "$" ++ groupsWire (group :: groups) := by
  simp [groupsWire, groupWire]

/-- A group is written as one of its spellings if its last condition is, whatever groups follow. -/
theorem groupsSpelled_cons {condition : Condition} {group : List Condition} {groups : List (List Condition)}
    (hlast : ∀ c, c.isWellFormed → GroupsSpelled ([c] :: groups) (groupsWire ([c] :: groups)).toList)
    (hgroup : ∀ c ∈ condition :: group, c.isWellFormed) :
    GroupsSpelled ((condition :: group) :: groups) (groupsWire ((condition :: group) :: groups)).toList := by
  induction group generalizing condition with
  | nil => exact hlast condition (hgroup condition List.mem_cons_self)
  | cons next group ih =>
    rw [groupsWire_cons_cons]
    simp only [String.toList_append, List.append_assoc]
    have hcondition := Condition.spelled_wire (hgroup condition List.mem_cons_self)
    exact .link hcondition (ih fun c hc => hgroup c (List.mem_cons_of_mem _ hc))

/-- Groups that are not empty are written as one of their spellings. -/
theorem groupsSpelled_groupsWire {groups : List (List Condition)} (hne : groups ≠ [])
    (hgroups : ∀ g ∈ groups, g ≠ [] ∧ ∀ c ∈ g, c.isWellFormed) : GroupsSpelled groups (groupsWire groups).toList := by
  induction groups with
  | nil => exact absurd rfl hne
  | cons group groups ih =>
    obtain ⟨hgroup, hconditions⟩ := hgroups group List.mem_cons_self
    obtain ⟨condition, group, rfl⟩ := List.exists_cons_of_ne_nil hgroup
    refine groupsSpelled_cons (fun c hc => ?_) hconditions
    have hspelled := Condition.spelled_wire hc
    cases groups with
    | nil => simpa [groupsWire, groupWire] using GroupsSpelled.last hspelled
    | cons next groups =>
      rw [groupsWire_singleton]
      simp only [String.toList_append, List.append_assoc]
      exact .separate hspelled (by decide) (ih (by simp) fun g hg => hgroups g (List.mem_cons_of_mem _ hg))

/-- A trigger is well-formed exactly if its conditions are and no alternative is empty. -/
theorem isWellFormed_iff {trigger : Trigger} :
    trigger.isWellFormed ↔
      (∀ c ∈ trigger.core, c.isWellFormed) ∧ ∀ g ∈ trigger.alternatives, g ≠ [] ∧ ∀ c ∈ g, c.isWellFormed := by
  simp only [isWellFormed, groups, List.all_cons, Bool.and_eq_true, List.all_eq_true, Bool.not_eq_true',
    List.isEmpty_eq_false_iff]
  constructor
  · rintro ⟨⟨hcore, hgroups⟩, hne⟩
    exact ⟨hcore, fun g hg => ⟨hne g hg, hgroups g hg⟩⟩
  · rintro ⟨hcore, hgroups⟩
    exact ⟨⟨hcore, fun g hg => (hgroups g hg).2⟩, fun g hg => (hgroups g hg).1⟩

/-- A well-formed trigger is written as one of its spellings. -/
theorem spelled_wire {trigger : Trigger} (h : trigger.isWellFormed) : trigger.Spelled trigger.wire.toList := by
  obtain ⟨hcore, halternatives⟩ := isWellFormed_iff.mp h
  obtain ⟨core, alternatives⟩ := trigger
  cases core with
  | cons condition core =>
    refine .core (groupsSpelled_groupsWire (by simp) fun g hg => ?_)
    rcases List.mem_cons.mp hg with rfl | hg
    · exact ⟨by simp, hcore⟩
    · exact halternatives g hg
  | nil =>
    cases alternatives with
    | nil => exact .empty
    | cons group groups =>
      have hwire : (Trigger.mk [] (group :: groups)).wire.toList = '$' :: (groupsWire (group :: groups)).toList := by
        simp [wire, Trigger.groups, groupsWire, groupWire]
      rw [hwire]
      exact .alternatives (by decide) (groupsSpelled_groupsWire (by simp) halternatives)

/-! ### Spellings are read -/

/-- A separator ends a condition. -/
theorem closesCondition_of_isSeparator {c : Char} (h : isSeparator c) : closesCondition c := by
  have hc : c = 'S' ∨ c = '$' := by simpa [isSeparator] using h
  rcases hc with rfl | rfl <;> decide

/-- An underscore ends a condition. -/
theorem underscore_closes (rest : List Char) : ∀ c ∈ ('_' :: rest).head?, closesCondition c := by
  intro c hc
  rw [← Option.mem_some.mp hc]
  decide

/-- Spelled groups are read as the groups; the conditions already read of the first one stand in front of it. -/
theorem readGroups_of_spelled {groups : List (List Condition)} {text : List Char} (h : GroupsSpelled groups text)
    {bound : Nat} (hbound : text.length < bound) (current : List Condition) (position : Nat) :
    ∃ group others, groups = group :: others ∧
      readGroups bound current ⟨text, position⟩ =
        .ok ((current.reverse ++ group) :: others, ⟨[], position + Text.byteSize text⟩) := by
  induction h generalizing bound current position with
  | @last condition text hcondition =>
    refine ⟨[condition], [], rfl, ?_⟩
    obtain ⟨bound, rfl⟩ : ∃ n, bound = n + 1 := ⟨bound - 1, by omega⟩
    have hread : WireCursor.condition ⟨text ++ [], position⟩ = .ok (condition, ⟨[], position + Text.byteSize text⟩) :=
      WireCursor.condition_of_spelled hcondition (by simp) position
    rw [List.append_nil] at hread
    simp [readGroups, hread, bind, Except.bind, pure, Except.pure]
  | @link condition text group groups rest hcondition hrest ih =>
    obtain ⟨bound, rfl⟩ : ∃ n, bound = n + 1 := ⟨bound - 1, by omega⟩
    simp only [List.length_append, List.length_cons] at hbound
    have hread := WireCursor.condition_of_spelled hcondition (underscore_closes rest) position
    obtain ⟨group', others, hgroups, hothers⟩ :=
      ih (by omega : rest.length < bound) (condition :: current) (position + (Text.byteSize text + '_'.utf8Size))
    obtain ⟨rfl, rfl⟩ := List.cons.inj hgroups
    refine ⟨condition :: group, groups, rfl, ?_⟩
    simp [readGroups, hread, bind, Except.bind, WireCursor.skip, hothers, Nat.add_assoc]
  | @separate condition text separator groups rest hcondition hseparator hrest ih =>
    obtain ⟨bound, rfl⟩ : ∃ n, bound = n + 1 := ⟨bound - 1, by omega⟩
    simp only [List.length_append, List.length_cons] at hbound
    have hcloses : ∀ c ∈ (separator :: rest).head?, closesCondition c := by
      intro c hc
      rw [← Option.mem_some.mp hc]
      exact closesCondition_of_isSeparator hseparator
    have hread := WireCursor.condition_of_spelled hcondition hcloses position
    have hne : separator ≠ '_' := by
      rintro rfl
      exact absurd hseparator (by decide)
    obtain ⟨group, others, hgroups, hothers⟩ :=
      ih (by omega : rest.length < bound) [] (position + (Text.byteSize text + separator.utf8Size))
    refine ⟨[condition], groups, rfl, ?_⟩
    simp [readGroups, hread, bind, Except.bind, pure, Except.pure, WireCursor.skip, hothers, hne, hseparator, hgroups,
      Nat.add_assoc]

/-- Every spelling of groups is read to its end. -/
theorem readAllGroups_of_spelled {groups : List (List Condition)} {text : List Char} (h : GroupsSpelled groups text)
    (position : Nat) :
    readAllGroups ⟨text, position⟩ = .ok (groups, ⟨[], position + Text.byteSize text⟩) := by
  obtain ⟨group, others, rfl, hread⟩ := readGroups_of_spelled h (Nat.lt_succ_self _) [] position
  exact hread

/-- Groups begin with no separator. -/
theorem GroupsSpelled.head {groups : List (List Condition)} {text : List Char} (h : GroupsSpelled groups text) :
    ∃ c cs, text = c :: cs ∧ isSeparator c = false := by
  cases h with
  | last hcondition => exact hcondition.head
  | link hcondition _ | separate hcondition _ _ =>
    obtain ⟨c, cs, rfl, hc⟩ := hcondition.head
    exact ⟨c, _, rfl, hc⟩

/-- Every spelling of a trigger is read as the trigger. -/
theorem ofWire_of_spelled {trigger : Trigger} {text : String} (h : trigger.Spelled text.toList) :
    ofWire text = .ok trigger := by
  have hread : ∃ position, read (WireCursor.ofString text) = .ok (trigger, ⟨[], position⟩) := by
    rw [WireCursor.ofString]
    generalize text.toList = text at h
    cases h with
    | empty => exact ⟨0, rfl⟩
    | @alternatives separator groups text hseparator hgroups =>
      refine ⟨0 + separator.utf8Size + Text.byteSize text, ?_⟩
      simp only [read, hseparator, if_true, WireCursor.skip, readAllGroups_of_spelled hgroups]
      rfl
    | core hgroups =>
      obtain ⟨c, cs, rfl, hc⟩ := hgroups.head
      refine ⟨0 + Text.byteSize (c :: cs), ?_⟩
      simp only [read, hc, Bool.false_eq_true, if_false, readAllGroups_of_spelled hgroups]
      rfl
  obtain ⟨position, hread⟩ := hread
  rw [ofWire, hread]
  rfl

/-- What is written as a well-formed trigger is read as the trigger. -/
theorem ofWire_wire {trigger : Trigger} (h : trigger.isWellFormed) : ofWire trigger.wire = .ok trigger :=
  ofWire_of_spelled (spelled_wire h)

/-! ### What is read is well-formed -/

/-- The groups that are read are not empty, and their conditions are well-formed. -/
theorem isWellFormed_of_readGroups {bound : Nat} {current : List Condition} {start cursor : WireCursor}
    {groups : List (List Condition)} (hcurrent : ∀ c ∈ current, c.isWellFormed)
    (h : readGroups bound current start = .ok (groups, cursor)) :
    ∀ g ∈ groups, g ≠ [] ∧ ∀ c ∈ g, c.isWellFormed := by
  induction bound generalizing current start cursor groups with
  | zero => cases h
  | succ bound ih =>
    rw [readGroups] at h
    obtain ⟨⟨condition, cursor'⟩, hcondition, h⟩ := bind_eq_ok.mp h
    have hconditions : ∀ c ∈ condition :: current, c.isWellFormed := by
      intro c hc
      rcases List.mem_cons.mp hc with rfl | hc
      · exact WireCursor.isWellFormed_of_condition hcondition
      · exact hcurrent c hc
    have hgroup : (condition :: current).reverse ≠ [] ∧ ∀ c ∈ (condition :: current).reverse, c.isWellFormed :=
      ⟨by simp, fun c hc => hconditions c (List.mem_reverse.mp hc)⟩
    simp only at h
    split at h
    · split at h
      · exact ih hconditions h
      · split at h
        · obtain ⟨⟨others, cursor''⟩, hothers, h⟩ := bind_eq_ok.mp h
          obtain ⟨rfl, _⟩ := Prod.mk.inj (Except.ok.inj h)
          intro g hg
          rcases List.mem_cons.mp hg with rfl | hg
          · exact hgroup
          · exact ih (List.forall_mem_nil _) hothers g hg
        · obtain ⟨rfl, _⟩ := Prod.mk.inj (Except.ok.inj h)
          intro g hg
          rwa [List.mem_singleton.mp hg]
    · obtain ⟨rfl, _⟩ := Prod.mk.inj (Except.ok.inj h)
      intro g hg
      rwa [List.mem_singleton.mp hg]

/-- A trigger that is read is well-formed. -/
theorem isWellFormed_of_ofWire {text : String} {trigger : Trigger} (h : ofWire text = .ok trigger) :
    trigger.isWellFormed := by
  obtain ⟨⟨trigger', cursor⟩, hread, h⟩ := bind_eq_ok.mp h
  obtain ⟨_, _, h⟩ := bind_eq_ok.mp h
  obtain rfl : trigger' = trigger := Except.ok.inj h
  rw [isWellFormed_iff]
  unfold read at hread
  split at hread
  · obtain ⟨rfl, _⟩ := Prod.mk.inj (Except.ok.inj hread)
    simp
  · split at hread
    · obtain ⟨⟨groups, cursor'⟩, hgroups, hread⟩ := bind_eq_ok.mp hread
      obtain ⟨rfl, _⟩ := Prod.mk.inj (Except.ok.inj hread)
      exact ⟨by simp, isWellFormed_of_readGroups (List.forall_mem_nil _) hgroups⟩
    · obtain ⟨⟨groups, cursor'⟩, hgroups, hread⟩ := bind_eq_ok.mp hread
      obtain ⟨rfl, _⟩ := Prod.mk.inj (Except.ok.inj hread)
      have hall := isWellFormed_of_readGroups (List.forall_mem_nil _) hgroups
      cases groups with
      | nil => simp
      | cons core groups =>
        exact ⟨(hall core List.mem_cons_self).2, fun g hg => hall g (List.mem_cons_of_mem _ hg)⟩

/-- At least one group is read. -/
theorem ne_nil_of_readGroups {bound : Nat} {current : List Condition} {start cursor : WireCursor}
    {groups : List (List Condition)} (h : readGroups bound current start = .ok (groups, cursor)) : groups ≠ [] := by
  induction bound generalizing current start cursor groups with
  | zero => cases h
  | succ bound ih =>
    rw [readGroups] at h
    obtain ⟨⟨condition, cursor'⟩, _, h⟩ := bind_eq_ok.mp h
    simp only at h
    split at h
    · split at h
      · exact ih h
      · split at h
        · obtain ⟨_, _, h⟩ := bind_eq_ok.mp h
          obtain ⟨rfl, _⟩ := Prod.mk.inj (Except.ok.inj h)
          exact List.cons_ne_nil _ _
        · obtain ⟨rfl, _⟩ := Prod.mk.inj (Except.ok.inj h)
          exact List.cons_ne_nil _ _
    · obtain ⟨rfl, _⟩ := Prod.mk.inj (Except.ok.inj h)
      exact List.cons_ne_nil _ _

/-- Only the empty text is read as the trigger without conditions. -/
theorem toList_eq_nil_of_ofWire {text : String} (h : ofWire text = .ok {}) : text.toList = [] := by
  obtain ⟨⟨trigger, cursor⟩, hread, h⟩ := bind_eq_ok.mp h
  obtain ⟨_, _, h⟩ := bind_eq_ok.mp h
  obtain rfl : trigger = {} := Except.ok.inj h
  unfold read at hread
  split at hread
  · assumption
  · split at hread
    · obtain ⟨⟨groups, cursor'⟩, hgroups, hread⟩ := bind_eq_ok.mp hread
      have hnil : groups = [] := congrArg Trigger.alternatives (Prod.mk.inj (Except.ok.inj hread)).1
      exact absurd hnil (ne_nil_of_readGroups hgroups)
    · obtain ⟨⟨groups, cursor'⟩, hgroups, hread⟩ := bind_eq_ok.mp hread
      have hcore : groups.headD [] = [] := congrArg Trigger.core (Prod.mk.inj (Except.ok.inj hread)).1
      obtain ⟨group, others, rfl⟩ := List.exists_cons_of_ne_nil (ne_nil_of_readGroups hgroups)
      exact absurd hcore (isWellFormed_of_readGroups (List.forall_mem_nil _) hgroups group List.mem_cons_self).1

/-- Exactly the well-formed triggers are read back from what they are written as. Every text that is read at all gives a
well-formed trigger, so writing it and reading it again changes nothing. -/
theorem reading_inverts_writing (trigger : Trigger) :
    (ofWire trigger.wire = .ok trigger ↔ trigger.isWellFormed) ∧
      ∀ text, ofWire text = .ok trigger →
        trigger.isWellFormed ∧ ofWire trigger.wire = .ok trigger ∧ (ofWire trigger.wire).map wire = .ok trigger.wire := by
  refine ⟨⟨isWellFormed_of_ofWire, ofWire_wire⟩, fun text h => ?_⟩
  have hformed := isWellFormed_of_ofWire h
  refine ⟨hformed, ofWire_wire hformed, ?_⟩
  rw [ofWire_wire hformed]
  rfl

/-- A trigger without a core: a scaled source before a counted comparison, and an alternative of one condition. -/
def sample : Trigger :=
  { alternatives :=
      [[{ flag := .subSource, left := .memory { mode := .decimal, size := .word, address := 0xABCDEF01 },
          right? := some (.multiply, .number 3) },
        { flag := .measured, left := .memory (.ofSize .bit6 0), right? := some (.compare .lessEqual, .number 4294967295),
          hits := 10 }],
       [.comparison (.number 0) .notEqual (.memory { mode := .previous, size := .byte, address := 0x1f })]] }

/-- A trigger is read from another spelling, and what is written for it is read back. -/
theorem reading_inverts_writing_sample :
    ofWire "SB:b0XABCDEF01*h3_M:0xs0<=4294967295.10.$00!=d0xh1F" = .ok sample ∧
      sample.wire = "$B:b0x abcdef01*3_M:0xS000000<=4294967295.10.$0!=d0xH00001f" ∧
      ofWire sample.wire = .ok sample ∧ (ofWire sample.wire).map wire = .ok sample.wire := by
  have hread : ofWire "SB:b0XABCDEF01*h3_M:0xs0<=4294967295.10.$00!=d0xh1F" = .ok sample := rfl
  exact ⟨hread, by decide, ((reading_inverts_writing sample).2 _ hread).2⟩

end Trigger

end TriggerScript
