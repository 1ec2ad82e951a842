import TriggerScript.Proofs.Wire.Trigger

/-!
# Other spellings of a written trigger

A written trigger can be spelled in other ways, each part on its own: a separator of groups as an `S`, addresses and
constants with more or fewer zeros in front, constants in hexadecimal digits, these and those of addresses in either case,
the mark of a read and the letter of a size in the other case, and a word without its letter. `Trigger.Respelled` names
these texts without reference to the reader. Every one of them is read as the trigger.
-/

namespace TriggerScript

/-! ## Digits -/

namespace Text

/-- The decimal digits of a number behind any number of zeros. -/
def RespellsDecimal (n : Nat) (digits : List Char) : Prop :=
  ∃ zeros, digits = List.replicate zeros '0' ++ Nat.toDigits 10 n

/-- The hexadecimal digits of a number, each in either case, behind any number of zeros. -/
def RespellsHex (n : Nat) (digits : List Char) : Prop :=
  ∃ zeros, digits.map Char.toLower = List.replicate zeros '0' ++ Nat.toDigits 16 n

/-- A character beyond ASCII has no other case. -/
theorem toLower_of_not_ascii {c : Char} (h : ¬ c.toNat < 128) : c.toLower = c := by
  have hupper : ¬ (c.val ≥ 'A'.val ∧ c.val ≤ 'Z'.val) := by
    rintro ⟨_, hle⟩
    have hle : c.toNat ≤ 'Z'.toNat := hle
    have hlast : 'Z'.toNat < 128 := by decide
    omega
  unfold Char.toLower
  rw [dif_neg hupper]

/-- The case of a digit does not change its value. -/
theorem digitValue?_toLower (c : Char) : digitValue? 16 c.toLower = digitValue? 16 c := by
  by_cases hc : c.toNat < 128
  · exact forall_ascii (P := fun c => digitValue? 16 c.toLower = digitValue? 16 c) (by decide) hc
  · rw [toLower_of_not_ascii hc]

/-- Hexadecimal digits mean the same in either case. -/
theorem valueOfDigits?_toLower (value : Nat) (digits : List Char) :
    valueOfDigits? 16 value (digits.map Char.toLower) = valueOfDigits? 16 value digits := by
  induction digits generalizing value with
  | nil => rfl
  | cons c digits ih =>
    rw [List.map_cons, valueOfDigits?, valueOfDigits?, digitValue?_toLower]
    cases digitValue? 16 c with
    | none => rfl
    | some digit => exact ih _

variable {n : Nat} {digits : List Char}

/-- Decimal digits with leading zeros spell the number. -/
theorem RespellsDecimal.spells (h : RespellsDecimal n digits) : Spells 10 digits n := by
  obtain ⟨zeros, rfl⟩ := h
  exact (spells_toDigits (by decide) (by decide) n).zeros (by decide) zeros

/-- Hexadecimal digits in either case, with leading zeros, spell the number. -/
theorem RespellsHex.spells (h : RespellsHex n digits) : Spells 16 digits n := by
  obtain ⟨zeros, hlower⟩ := h
  have hspells : Spells 16 (digits.map Char.toLower) n := by
    rw [hlower]
    exact (spells_toDigits (by decide) (by decide) n).zeros (by decide) zeros
  refine ⟨fun hnil => hspells.1 ?_, ?_⟩
  · rw [hnil, List.map_nil]
  · rw [← valueOfDigits?_toLower]
    exact hspells.2

/-- Hexadecimal digits are written in lower case. -/
theorem toLower_digitChar {d : Nat} (hd : d < 16) : d.digitChar.toLower = d.digitChar := by
  have hall : ∀ d < 16, d.digitChar.toLower = d.digitChar := by decide
  exact hall d hd

/-- Hexadecimal digits are written in lower case. -/
theorem map_toLower_toDigits (n : Nat) : (Nat.toDigits 16 n).map Char.toLower = Nat.toDigits 16 n := by
  induction n using Nat.strongRecOn with
  | ind n ih =>
    by_cases hn : n < 16
    · rw [Nat.toDigits_of_lt_base hn, List.map_singleton, toLower_digitChar hn]
    · have hdiv : n / 16 < n := Nat.div_lt_self (by omega) (by decide)
      rw [Nat.toDigits_of_base_le (by decide) (by omega), List.map_append, ih _ hdiv, List.map_singleton,
        toLower_digitChar (Nat.mod_lt n (by decide))]

/-- Digits that are filled up to a least width are a spelling of their number. -/
theorem respellsHex_hexDigits (width n : Nat) : RespellsHex n (hexDigits width n) := by
  refine ⟨width - (Nat.toDigits 16 n).length, ?_⟩
  rw [hexDigits, List.leftpad, List.map_append, List.map_replicate, map_toLower_toDigits]
  rfl

end Text

/-! ## Operands and conditions -/

/-- The letter of a size in either case; that of a word may be missing. -/
inductive MemorySize.Respelled : MemorySize → List Char → Prop
  | written {size : MemorySize} : Respelled size [size.letter]
  | lower {size : MemorySize} : Respelled size [size.letter.toLower]
  | omitted : Respelled .word []

/-- The texts that a written operand may be replaced by. -/
inductive Operand.Respelled : Operand → List Char → Prop
  /-- A constant in decimal digits. -/
  | decimal {value : UInt32} {digits : List Char} (hdigits : Text.RespellsDecimal value.toNat digits) :
    Respelled (.number value) digits
  /-- A constant in hexadecimal digits behind their mark. -/
  | hex {value : UInt32} {mark : Char} {digits : List Char} (hmark : mark = 'h' ∨ mark = 'H')
    (hdigits : Text.RespellsHex value.toNat digits) : Respelled (.number value) (mark :: digits)
  /-- A read. -/
  | read {mode : ReadMode} {size : MemorySize} {address : UInt32} {x : Char} {letter digits : List Char}
    (hx : x = 'x' ∨ x = 'X') (hletter : size.Respelled letter) (hdigits : Text.RespellsHex address.toNat digits) :
    Respelled (.memory { mode, size, address }) (mode.letter?.toList ++ '0' :: x :: (letter ++ digits))

namespace Condition

/-- The texts that a written operator with its operand may be replaced by. -/
inductive RightRespelled : Option (Operator × Operand) → List Char → Prop
  | none : RightRespelled none []
  | some {op : Operator} {operand : Operand} {text : List Char} (hoperand : operand.Respelled text) :
    RightRespelled (some (op, operand)) (op.spelling.toList ++ text)

/-- The texts that a written condition may be replaced by: its flag and its hit count stay as they are. -/
inductive Respelled : Condition → List Char → Prop
  | mk {condition : Condition} {left right : List Char} (hleft : condition.left.Respelled left)
    (hright : RightRespelled condition.right? right) :
    Respelled condition (condition.flag.wire.toList ++ (left ++ (right ++ (hitsWire condition.hits).toList)))

end Condition

/-- A size is read from its letter in lower case. -/
theorem MemorySize.ofLetter?_toLower_letter (size : MemorySize) : ofLetter? size.letter.toLower = some size := by
  cases size <;> decide

/-- Every such text spells the operand. -/
theorem Operand.Respelled.spelled {operand : Operand} {text : List Char} (h : operand.Respelled text) :
    operand.Spelled text := by
  cases h with
  | decimal hdigits => exact .decimal hdigits.spells
  | hex hmark hdigits => exact .hex hmark hdigits.spells
  | @read mode size address x letter digits hx hletter hdigits =>
    cases hletter with
    | written => exact .read hx size.ofLetter?_letter hdigits.spells
    | lower => exact .read hx size.ofLetter?_toLower_letter hdigits.spells
    | omitted => exact .wordRead hx hdigits.spells

/-- An operand is written as one of these texts. -/
theorem Operand.respelled_wire (operand : Operand) : operand.Respelled operand.wire.toList := by
  cases operand with
  | number value =>
    rw [toList_wire_number]
    exact .decimal ⟨0, rfl⟩
  | memory read =>
    rw [toList_wire_memory]
    exact .read (Or.inl rfl) .written (Text.respellsHex_hexDigits 6 _)

namespace Condition

/-- A right side that is spelled otherwise is still spelled. -/
theorem RightRespelled.spelled {right? : Option (Operator × Operand)} {text : List Char} (h : RightRespelled right? text) :
    RightSpelled right? text := by
  cases h with
  | none => exact .none
  | some hoperand => exact .some hoperand.spelled

/-- Every such text spells the condition, if this is well-formed. -/
theorem Respelled.spelled {condition : Condition} {text : List Char} (h : condition.Respelled text)
    (hformed : condition.isWellFormed) : condition.Spelled text := by
  obtain ⟨hleft, hright⟩ := h
  exact .mk hleft.spelled hright.spelled (hitsSpelled_hitsWire _) hformed

/-- A condition is written as one of these texts. -/
theorem respelled_wire (condition : Condition) : condition.Respelled condition.wire.toList := by
  rw [wire]
  simp only [String.toList_append, List.append_assoc]
  change Respelled condition (_ ++ (_ ++ (_ ++ (hitsWire condition.hits).toList)))
  refine .mk condition.left.respelled_wire ?_
  cases condition.right? with
  | none => exact .none
  | some right =>
    rw [String.toList_append]
    exact .some right.2.respelled_wire

end Condition

/-! ## Triggers -/

namespace Trigger

/-- The texts that a written group may be replaced by. -/
inductive GroupRespelled : List Condition → List Char → Prop
  | empty : GroupRespelled [] []
  | single {condition : Condition} {text : List Char} (hcondition : condition.Respelled text) :
    GroupRespelled [condition] text
  | link {condition next : Condition} {group : List Condition} {text rest : List Char}
    (hcondition : condition.Respelled text) (hrest : GroupRespelled (next :: group) rest) :
    GroupRespelled (condition :: next :: group) (text ++ '_' :: rest)

/-- The texts that written groups may be replaced by. -/
inductive GroupsRespelled : List (List Condition) → List Char → Prop
  | single {group : List Condition} {text : List Char} (hgroup : GroupRespelled group text) :
    GroupsRespelled [group] text
  | separate {group next : List Condition} {groups : List (List Condition)} {separator : Char} {text rest : List Char}
    (hgroup : GroupRespelled group text) (hseparator : separator = '$' ∨ separator = 'S')
    (hrest : GroupsRespelled (next :: groups) rest) :
    GroupsRespelled (group :: next :: groups) (text ++ separator :: rest)

/-- The texts that a written trigger may be replaced by. -/
def Respelled (trigger : Trigger) (text : List Char) : Prop :=
  GroupsRespelled trigger.groups text

/-! ### Written triggers -/

/-- What is written for a group is one of its spellings. -/
theorem groupRespelled_groupWire (group : List Condition) : GroupRespelled group (groupWire group).toList := by
  induction group with
  | nil => exact .empty
  | cons condition group ih =>
    cases group with
    | nil => simpa [groupWire] using GroupRespelled.single condition.respelled_wire
    | cons next group =>
      have hwire : (groupWire (condition :: next :: group)).toList =
          condition.wire.toList ++ '_' :: (groupWire (next :: group)).toList := by
        simp [groupWire]
      rw [hwire]
      exact .link condition.respelled_wire ih

/-- A trigger is written as one of these texts. -/
theorem respelled_wire (trigger : Trigger) : trigger.Respelled trigger.wire.toList := by
  unfold Respelled wire groups
  generalize trigger.core = core
  induction trigger.alternatives generalizing core with
  | nil => simpa using GroupsRespelled.single (groupRespelled_groupWire core)
  | cons group groups ih =>
    have hwire : ("$".intercalate ((core :: group :: groups).map groupWire)).toList =
        (groupWire core).toList ++ '$' :: ("$".intercalate ((group :: groups).map groupWire)).toList := by
      simp
    rw [hwire]
    exact .separate (groupRespelled_groupWire core) (Or.inl rfl) (ih group)

/-! ### Every such text spells the trigger -/

/-- Groups are separated by a dollar sign or a letter. -/
theorem isSeparator_iff {c : Char} : isSeparator c ↔ c = '$' ∨ c = 'S' := by
  simp [isSeparator, or_comm]

/-- A group that is not empty spells itself alone. -/
theorem GroupRespelled.spelled {group : List Condition} {text : List Char} (h : GroupRespelled group text)
    (hne : group ≠ []) (hformed : ∀ c ∈ group, c.isWellFormed) : GroupsSpelled [group] text := by
  induction h with
  | empty => exact absurd rfl hne
  | single hcondition => exact .last (hcondition.spelled (hformed _ List.mem_cons_self))
  | link hcondition _ ih =>
    rw [List.forall_mem_cons] at hformed
    exact .link (hcondition.spelled hformed.1) (ih (List.cons_ne_nil _ _) hformed.2)

/-- A group that is not empty spells itself in front of others. -/
theorem GroupRespelled.spelled_append {group : List Condition} {text : List Char} (h : GroupRespelled group text)
    (hne : group ≠ []) (hformed : ∀ c ∈ group, c.isWellFormed) {separator : Char} (hseparator : isSeparator separator)
    {groups : List (List Condition)} {rest : List Char} (hrest : GroupsSpelled groups rest) :
    GroupsSpelled (group :: groups) (text ++ separator :: rest) := by
  induction h with
  | empty => exact absurd rfl hne
  | single hcondition => exact .separate (hcondition.spelled (hformed _ List.mem_cons_self)) hseparator hrest
  | link hcondition _ ih =>
    rw [List.forall_mem_cons] at hformed
    rw [List.append_assoc]
    exact .link (hcondition.spelled hformed.1) (ih (List.cons_ne_nil _ _) hformed.2)

/-- Groups that are not empty spell themselves. -/
theorem GroupsRespelled.spelled {groups : List (List Condition)} {text : List Char} (h : GroupsRespelled groups text)
    (hformed : ∀ g ∈ groups, g ≠ [] ∧ ∀ c ∈ g, c.isWellFormed) : GroupsSpelled groups text := by
  induction h with
  | single hgroup =>
    obtain ⟨hne, hconditions⟩ := hformed _ List.mem_cons_self
    exact hgroup.spelled hne hconditions
  | separate hgroup hseparator _ ih =>
    rw [List.forall_mem_cons] at hformed
    exact hgroup.spelled_append hformed.1.1 hformed.1.2 (isSeparator_iff.mpr hseparator) (ih hformed.2)

/-- Every text that a written trigger may be replaced by spells it, if it is well-formed. An empty core is written as
nothing, so such a text begins with a separator if anything follows. -/
theorem Respelled.spelled {trigger : Trigger} {text : List Char} (h : trigger.Respelled text)
    (hformed : trigger.isWellFormed) : trigger.Spelled text := by
  obtain ⟨hcore, halternatives⟩ := isWellFormed_iff.mp hformed
  obtain ⟨core, alternatives⟩ := trigger
  unfold Respelled groups at h
  cases core with
  | cons condition core =>
    exact .core (h.spelled (List.forall_mem_cons.mpr ⟨⟨List.cons_ne_nil _ _, hcore⟩, halternatives⟩))
  | nil =>
    cases h with
    | single hgroup =>
      cases hgroup
      exact .empty
    | separate hgroup hseparator hrest =>
      cases hgroup
      exact .alternatives (isSeparator_iff.mpr hseparator) (hrest.spelled halternatives)

/-- A well-formed trigger is read from every text that its written form may be replaced by, and this form is one of them. -/
theorem respellings_read_alike {trigger : Trigger} (hformed : trigger.isWellFormed) :
    trigger.Respelled trigger.wire.toList ∧ ∀ text : String, trigger.Respelled text.toList → ofWire text = .ok trigger :=
  ⟨trigger.respelled_wire, fun _ h => ofWire_of_spelled (h.spelled hformed)⟩

/-- All liberties in one text: both separators, a constant in hexadecimal and one behind a zero, addresses with other zeros
and cases, a large mark, small letters, and a word without its letter. -/
theorem respellings_read_alike_sample :
    sample.isWellFormed ∧ sample.wire = "$B:b0x abcdef01*3_M:0xS000000<=4294967295.10.$0!=d0xH00001f" ∧
      sample.Respelled "SB:b0XAbCDEF01*h003_M:0xs0<=HFFfFFFFF.10.$00!=d0xh1F".toList ∧
      ofWire "SB:b0XAbCDEF01*h003_M:0xs0<=HFFfFFFFF.10.$00!=d0xh1F" = .ok sample := by
  have hformed : sample.isWellFormed := by decide
  have haddress : Text.RespellsHex 0xABCDEF01 "AbCDEF01".toList := ⟨0, by decide⟩
  have hthree : Text.RespellsHex 3 "003".toList := ⟨2, by decide⟩
  have hzero : Text.RespellsHex 0 "0".toList := ⟨0, by decide⟩
  have hlargest : Text.RespellsHex 4294967295 "FFfFFFFF".toList := ⟨0, by decide⟩
  have hzeros : Text.RespellsDecimal 0 "00".toList := ⟨1, by decide⟩
  have hshort : Text.RespellsHex 0x1f "1F".toList := ⟨0, by decide⟩
  have hrespelled : sample.Respelled "SB:b0XAbCDEF01*h003_M:0xs0<=HFFfFFFFF.10.$00!=d0xh1F".toList := by
    refine Eq.mp (congrArg sample.Respelled ?_) (GroupsRespelled.separate .empty (Or.inr rfl)
      (.separate (.link (.mk (.read (Or.inr rfl) .omitted haddress) (.some (.hex (Or.inl rfl) hthree)))
        (.single (.mk (.read (Or.inl rfl) .lower hzero) (.some (.hex (Or.inr rfl) hlargest)))))
        (Or.inl rfl) (.single (.single (.mk (.decimal hzeros) (.some (.read (Or.inl rfl) .lower hshort)))))))
    decide
  exact ⟨hformed, by decide, hrespelled, (respellings_read_alike hformed).2 _ hrespelled⟩

end Trigger

end TriggerScript
