import TriggerScript.Proofs.Outcome
import TriggerScript.Proofs.Text.Bytes
import TriggerScript.Proofs.Number
import TriggerScript.Condition.Wire

/-!
# Spellings of conditions

A condition has more spellings than the one it is written with: numbers may be hexadecimal or begin with zeros, letters of
sizes may be small, and the letter of a word may be missing. `Condition.Spelled` says which texts spell a condition. Every
spelling is read as its condition and exactly to its end, if what follows cannot be taken for more of it.
-/

namespace TriggerScript

/-! ## Spellings -/

/-- The texts that spell an operand. -/
inductive Operand.Spelled : Operand → List Char → Prop
  /-- A number in decimal digits. -/
  | decimal {value : UInt32} {digits : List Char} (hdigits : Text.Spells 10 digits value.toNat) :
    Spelled (.number value) digits
  /-- A number in hexadecimal digits behind a mark. -/
  | hex {value : UInt32} {digits : List Char} {mark : Char} (hmark : mark = 'h' ∨ mark = 'H')
    (hdigits : Text.Spells 16 digits value.toNat) : Spelled (.number value) (mark :: digits)
  /-- A read with a letter for its size. -/
  | read {mode : ReadMode} {size : MemorySize} {address : UInt32} {digits : List Char} {x letter : Char}
    (hx : x = 'x' ∨ x = 'X') (hletter : MemorySize.ofLetter? letter = some size)
    (hdigits : Text.Spells 16 digits address.toNat) :
    Spelled (.memory { mode, size, address }) (mode.letter?.toList ++ '0' :: x :: letter :: digits)
  /-- A read of a word without a letter. -/
  | wordRead {mode : ReadMode} {address : UInt32} {digits : List Char} {x : Char} (hx : x = 'x' ∨ x = 'X')
    (hdigits : Text.Spells 16 digits address.toNat) :
    Spelled (.memory { mode, size := .word, address }) (mode.letter?.toList ++ '0' :: x :: digits)

namespace Condition

/-- The texts that spell an operator with its right operand, or the lack of one. -/
inductive RightSpelled : Option (Operator × Operand) → List Char → Prop
  | none : RightSpelled none []
  | some {op : Operator} {operand : Operand} {text : List Char} (hoperand : operand.Spelled text) :
    RightSpelled (some (op, operand)) (op.spelling.toList ++ text)

/-- The texts that spell a hit count. -/
inductive HitsSpelled : UInt32 → List Char → Prop
  | none : HitsSpelled 0 []
  | count {hits : UInt32} {digits : List Char} (hdigits : Text.Spells 10 digits hits.toNat) :
    HitsSpelled hits ('.' :: (digits ++ ['.']))

/-- Whether a condition has the comparison that all but sources need. -/
def isWellFormed (condition : Condition) : Bool :=
  condition.flag.isSource || condition.right?.any (·.1.isComparison)

/-- The texts that spell a condition. -/
inductive Spelled : Condition → List Char → Prop
  | mk {condition : Condition} {left right hits : List Char} (hleft : condition.left.Spelled left)
    (hright : RightSpelled condition.right? right) (hhits : HitsSpelled condition.hits hits)
    (hcondition : condition.isWellFormed) : Spelled condition (condition.flag.wire.toList ++ (left ++ (right ++ hits)))

end Condition

/-! ### Written conditions are spelled -/

/-- A size is read from its letter. -/
theorem MemorySize.ofLetter?_letter (size : MemorySize) : ofLetter? size.letter = some size := by
  cases size <;> decide

/-- A number is written in decimal digits. -/
theorem Operand.toList_wire_number (value : UInt32) : (Operand.number value).wire.toList = Nat.toDigits 10 value.toNat := by
  simp [wire, ToString.toString, Nat.repr]

/-- A read is written as its mode, its size and six hexadecimal digits of its address. -/
theorem Operand.toList_wire_memory (read : MemoryRead) :
    (Operand.memory read).wire.toList =
      read.mode.letter?.toList ++ '0' :: 'x' :: read.size.letter :: Text.hexDigits 6 read.address.toNat := by
  simp [wire, MemoryRead.wire]

/-- What is written for an operand spells it. -/
theorem Operand.spelled_wire (operand : Operand) : operand.Spelled operand.wire.toList := by
  cases operand with
  | number value =>
    rw [toList_wire_number]
    exact .decimal (Text.spells_toDigits (by decide) (by decide) value.toNat)
  | memory read =>
    rw [toList_wire_memory]
    exact .read (Or.inl rfl) read.size.ofLetter?_letter (Text.spells_hexDigits 6 _)

/-- A hit count as it is written. -/
def Condition.hitsWire (hits : UInt32) : String :=
  if hits = 0 then "" else "." ++ toString hits.toNat ++ "."

/-- What is written for a hit count spells it. -/
theorem Condition.hitsSpelled_hitsWire (hits : UInt32) : HitsSpelled hits (hitsWire hits).toList := by
  unfold hitsWire
  split
  · rename_i hzero
    rw [hzero]
    exact .none
  · have htext : ("." ++ toString hits.toNat ++ ".").toList = '.' :: (Nat.toDigits 10 hits.toNat ++ ['.']) := by
      simp [ToString.toString, Nat.repr]
    rw [htext]
    exact .count (Text.spells_toDigits (by decide) (by decide) _)

/-- A well-formed condition is written as one of its spellings. -/
theorem Condition.spelled_wire {condition : Condition} (h : condition.isWellFormed) :
    condition.Spelled condition.wire.toList := by
  rw [Condition.wire]
  simp only [String.toList_append, List.append_assoc]
  refine .mk condition.left.spelled_wire ?_ (hitsSpelled_hitsWire condition.hits) h
  cases condition.right? with
  | none => exact .none
  | some right =>
    rw [String.toList_append]
    exact .some right.2.spelled_wire

/-! ## Reading spellings -/

/-- Whether a character may stand behind an operand: no digit, and nothing that turns a zero into a read. -/
def closesOperand (c : Char) : Bool :=
  !Text.isDigit 16 c && c ≠ 'x' && c ≠ 'X'

/-- Whether a character begins an operator. -/
def beginsOperator (c : Char) : Bool :=
  ['=', '!', '<', '>', '*', '/'].contains c

/-- Whether a character may stand behind a condition. -/
def closesCondition (c : Char) : Bool :=
  closesOperand c && !beginsOperator c && c ≠ '.'

/-- Whether a character can be the first of an operand. -/
def beginsOperand (c : Char) : Bool :=
  Text.isDigit 10 c || ['h', 'H', 'd', 'p', 'b'].contains c

/-- What holds of all ASCII characters that begin an operand holds of all. -/
theorem forall_beginsOperand {P : Char → Prop} (h : ∀ n < 128, beginsOperand (Char.ofNat n) → P (Char.ofNat n)) {c : Char}
    (hc : beginsOperand c) : P c := by
  have hascii : c.toNat < 128 := by
    rcases Bool.or_eq_true_iff.mp hc with hdigit | hletter
    · exact Text.isAscii_of_isDigit hdigit
    · have hlt : ∀ c ∈ ['h', 'H', 'd', 'p', 'b'], c.toNat < 128 := by simp
      exact hlt c (List.contains_iff_mem.mp hletter)
  exact Text.forall_ascii (P := fun c => beginsOperand c → P c) h hascii hc

/-- Spellings of operands begin with a digit or one of a few letters. -/
theorem Operand.Spelled.head {operand : Operand} {text : List Char} (h : operand.Spelled text) :
    ∃ c cs, text = c :: cs ∧ beginsOperand c := by
  cases h with
  | decimal hdigits =>
    obtain ⟨c, cs, rfl⟩ := List.exists_cons_of_ne_nil hdigits.1
    refine ⟨c, cs, rfl, ?_⟩
    rw [beginsOperand, hdigits.all_digits c List.mem_cons_self, Bool.true_or]
  | hex hmark hdigits => exact ⟨_, _, rfl, by rcases hmark with rfl | rfl <;> decide⟩
  | @read mode _ _ _ _ _ _ _ _ => cases mode <;> exact ⟨_, _, rfl, by decide⟩
  | @wordRead mode _ _ _ _ _ => cases mode <;> exact ⟨_, _, rfl, by decide⟩

namespace WireCursor

@[simp] theorem skip_cons (n : Nat) (c : Char) (cs : List Char) (position : Nat) :
    skip (n + 1) ⟨c :: cs, position⟩ = skip n ⟨cs, position + c.utf8Size⟩ := rfl

/-- Skipping a text leaves what stands behind it. -/
theorem skip_append (text rest : List Char) (position : Nat) :
    (WireCursor.mk (text ++ rest) position).skip text.length = ⟨rest, position + Text.byteSize text⟩ := by
  induction text generalizing position with
  | nil => rfl
  | cons c text ih =>
    rw [List.cons_append, List.length_cons, skip_cons, ih, Text.byteSize_cons, Nat.add_assoc]

/-- Every spelling of a number is read as the number. -/
theorem digits_of_spells {α : Type} {base n : Nat} {meaning : List Char → Option α} {value : α} {digits rest : List Char}
    (hdigits : Text.Spells base digits n) (hmeaning : meaning digits = some value)
    (hrest : ∀ c ∈ rest.head?, Text.isDigit base c = false) (start position : Nat) :
    (WireCursor.mk (digits ++ rest) position).digits base meaning start =
      .ok (value, ⟨rest, position + Text.byteSize digits⟩) := by
  simp only [WireCursor.digits]
  rw [hdigits.takeWhile_append hrest, hmeaning]
  simp only [skip_append]

/-- What ends an operand is no digit. -/
theorem isDigit_eq_false {c : Char} (h : closesOperand c) {base : Nat} (hbase : base ≤ 16) :
    Text.isDigit base c = false := by
  rw [← Bool.not_eq_true]
  intro hdigit
  simp [closesOperand, Text.isDigit_mono hbase hdigit] at h

/-- A hexadecimal number is read from the digits that spell it, up to what ends the operand. -/
theorem hex_of_spells {value : UInt32} {digits rest : List Char} (hdigits : Text.Spells 16 digits value.toNat)
    (hrest : ∀ c ∈ rest.head?, closesOperand c) (position : Nat) :
    hex ⟨digits ++ rest, position⟩ = .ok (value, ⟨rest, position + Text.byteSize digits⟩) :=
  digits_of_spells hdigits hdigits.readUInt32? (fun c hc => isDigit_eq_false (hrest c hc) (by decide)) _ _

/-- A decimal number is read from the digits that spell it, up to what is no digit. -/
theorem decimal_of_spells {value : UInt32} {digits rest : List Char} (hdigits : Text.Spells 10 digits value.toNat)
    (hrest : ∀ c ∈ rest.head?, Text.isDigit 10 c = false) (position : Nat) :
    decimal ⟨digits ++ rest, position⟩ = .ok (value, ⟨rest, position + Text.byteSize digits⟩) :=
  digits_of_spells hdigits hdigits.readUInt32? hrest _ _

/-- A zero and an `x`, behind the letter of a mode, begin a read. -/
theorem operand_read {mode : ReadMode} {x : Char} (hx : x = 'x' ∨ x = 'X') (cs : List Char) (position : Nat) :
    operand ⟨mode.letter?.toList ++ '0' :: x :: cs, position⟩ =
      sizeAndAddress mode ⟨cs, position + Text.byteSize (mode.letter?.toList ++ ['0', x])⟩ := by
  rcases hx with rfl | rfl <;> cases mode <;> rfl

/-- A first character other than the letter of a mode, with no `x` behind it, begins a number. -/
theorem operand_number {c : Char} {cs : List Char} (hc : c ∉ ['d', 'p', 'b'])
    (hcs : ∀ x ∈ cs.head?, x ≠ 'x' ∧ x ≠ 'X') (position : Nat) :
    operand ⟨c :: cs, position⟩ = number ⟨c :: cs, position⟩ := by
  have hmode : readMode ⟨c :: cs, position⟩ = .current := by
    unfold readMode
    split <;> simp_all
  unfold operand
  rw [hmode]
  simp only [if_pos]
  split <;> simp_all

/-- A letter of a size is no digit. -/
theorem isDigit_of_ofLetter? {c : Char} {size : MemorySize} (h : MemorySize.ofLetter? c = some size) :
    Text.isDigit 16 c = false := by
  rw [← Bool.not_eq_true]
  intro hdigit
  have hnone := Text.forall_isDigit (P := fun c => MemorySize.ofLetter? c = none) (by decide) hdigit
  rw [hnone] at h
  cases h

/-- A size and an address are read from a letter and digits. -/
theorem sizeAndAddress_of_letter {mode : ReadMode} {size : MemorySize} {address : UInt32} {letter : Char}
    {digits rest : List Char} (hletter : MemorySize.ofLetter? letter = some size)
    (hdigits : Text.Spells 16 digits address.toNat) (hrest : ∀ c ∈ rest.head?, closesOperand c) (position : Nat) :
    sizeAndAddress mode ⟨letter :: digits ++ rest, position⟩ =
      .ok (.memory { mode, size, address }, ⟨rest, position + Text.byteSize (letter :: digits)⟩) := by
  rw [List.cons_append, sizeAndAddress]
  simp only [isDigit_of_ofLetter? hletter, Bool.false_eq_true, if_false, hletter, skip]
  rw [sizeAndAddress.address, hex_of_spells hdigits hrest, Text.byteSize_cons, Nat.add_assoc]
  rfl

/-- Without a letter, a word is read. -/
theorem sizeAndAddress_of_digits {mode : ReadMode} {address : UInt32} {digits rest : List Char}
    (hdigits : Text.Spells 16 digits address.toNat) (hrest : ∀ c ∈ rest.head?, closesOperand c) (position : Nat) :
    sizeAndAddress mode ⟨digits ++ rest, position⟩ =
      .ok (.memory { mode, size := .word, address }, ⟨rest, position + Text.byteSize digits⟩) := by
  obtain ⟨c, cs, rfl⟩ := List.exists_cons_of_ne_nil hdigits.1
  have hc := hdigits.all_digits c List.mem_cons_self
  rw [List.cons_append, sizeAndAddress]
  simp only [hc, if_true]
  rw [← List.cons_append, sizeAndAddress.address, hex_of_spells hdigits hrest]
  rfl

/-- Every spelling of an operand is read as the operand. -/
theorem operand_of_spelled {o : Operand} {text rest : List Char} (h : o.Spelled text)
    (hrest : ∀ c ∈ rest.head?, closesOperand c) (position : Nat) :
    operand ⟨text ++ rest, position⟩ = .ok (o, ⟨rest, position + Text.byteSize text⟩) := by
  cases h with
  | decimal hdigits =>
    obtain ⟨c, cs, rfl⟩ := List.exists_cons_of_ne_nil hdigits.1
    have hc := hdigits.all_digits c List.mem_cons_self
    have hmark := Text.forall_isDigit (P := fun c => c ∉ ['d', 'p', 'b'] ∧ ¬ (c = 'h' ∨ c = 'H')) (by decide) hc
    have hnext : ∀ x ∈ (cs ++ rest).head?, x ≠ 'x' ∧ x ≠ 'X' := by
      intro x hx
      cases cs with
      | nil =>
        have := hrest x hx
        simp_all [closesOperand]
      | cons x' cs =>
        rw [← Option.mem_some.mp hx]
        exact Text.forall_isDigit (P := fun x => x ≠ 'x' ∧ x ≠ 'X') (by decide) (hdigits.all_digits x' (by simp))
    rw [List.cons_append, operand_number hmark.1 hnext, number]
    simp only [if_neg hmark.2, hc, if_true]
    rw [← List.cons_append,
      decimal_of_spells hdigits fun c hc => isDigit_eq_false (hrest c hc) (by decide)]
    rfl
  | @hex value digits mark hmark hdigits =>
    have hmode : mark ∉ ['d', 'p', 'b'] := by rcases hmark with rfl | rfl <;> decide
    have hnext : ∀ x ∈ (digits ++ rest).head?, x ≠ 'x' ∧ x ≠ 'X' := by
      obtain ⟨c, cs, rfl⟩ := List.exists_cons_of_ne_nil hdigits.1
      intro x hx
      rw [← Option.mem_some.mp hx]
      exact Text.forall_isDigit (P := fun x => x ≠ 'x' ∧ x ≠ 'X') (by decide) (hdigits.all_digits c List.mem_cons_self)
    rw [List.cons_append, operand_number hmode hnext, number]
    simp only [if_pos hmark, skip]
    rw [hex_of_spells hdigits hrest, Text.byteSize_cons, Nat.add_assoc]
    rfl
  | @read mode size address digits x letter hx hletter hdigits =>
    rw [List.append_assoc, List.cons_append, List.cons_append, operand_read hx,
      sizeAndAddress_of_letter hletter hdigits hrest]
    simp [Nat.add_assoc]
  | @wordRead mode address digits x hx hdigits =>
    rw [List.append_assoc, List.cons_append, List.cons_append, operand_read hx, sizeAndAddress_of_digits hdigits hrest]
    simp [Nat.add_assoc]

/-- An operator is recognised in front of anything but an equals sign. -/
theorem operator?_spelling (op : Operator) {c : Char} (hc : c ≠ '=') (cs : List Char) :
    operator? (op.spelling.toList ++ c :: cs) = some op := by
  cases op with
  | compare op => cases op <;> simp [Operator.spelling, operator?, hc]
  | multiply => rfl
  | divide => rfl

/-- There is no operator where none begins. -/
theorem operator?_eq_none {rest : List Char} (h : ∀ c ∈ rest.head?, beginsOperator c = false) : operator? rest = none := by
  unfold operator?
  split <;> simp_all [beginsOperator]

/-- Every spelling of an operator with its operand is read as them, and a lack of them as none. -/
theorem rightSide_of_spelled {right? : Option (Operator × Operand)} {text rest : List Char}
    (h : Condition.RightSpelled right? text)
    (hrest : ∀ c ∈ rest.head?, closesOperand c ∧ beginsOperator c = false) (position : Nat) :
    rightSide ⟨text ++ rest, position⟩ = .ok (right?, ⟨rest, position + Text.byteSize text⟩) := by
  cases h with
  | none =>
    rw [List.nil_append, rightSide, operator?_eq_none fun c hc => (hrest c hc).2]
    rfl
  | @some op operand text hoperand =>
    obtain ⟨c, cs, hcs, hc⟩ := hoperand.head
    have hne := forall_beginsOperand (P := fun c => c ≠ '=') (by decide) hc
    have hop : operator? (op.spelling.toList ++ (text ++ rest)) = some op := by
      rw [hcs, List.cons_append, operator?_spelling op hne]
    rw [List.append_assoc, rightSide, hop]
    simp only [← String.length_toList, skip_append]
    rw [operand_of_spelled hoperand fun c hc => (hrest c hc).1, Text.byteSize_append, Nat.add_assoc]
    rfl

/-- Every spelling of a hit count is read as the count. -/
theorem hitCount_of_spelled {hits : UInt32} {text rest : List Char} (h : Condition.HitsSpelled hits text)
    (hrest : ∀ c ∈ rest.head?, c ≠ '.') (position : Nat) :
    hitCount ⟨text ++ rest, position⟩ = .ok (hits, ⟨rest, position + Text.byteSize text⟩) := by
  cases h with
  | none =>
    unfold hitCount
    split <;> simp_all
  | @count hits digits hdigits =>
    have hpoint : ∀ c ∈ ('.' :: rest).head?, Text.isDigit 10 c = false := by
      intro c hc
      rw [← Option.mem_some.mp hc]
      decide
    rw [List.cons_append, List.append_assoc, List.singleton_append, hitCount]
    simp only [skip]
    rw [decimal_of_spells hdigits hpoint]
    simp only [bind, Except.bind, pure, Except.pure, Text.byteSize_cons, Text.byteSize_append, Text.byteSize_nil]
    rw [Nat.add_zero, ← Nat.add_assoc, ← Nat.add_assoc]

/-- A flag is read in front of any operand. -/
theorem flag_wire (f : Flag) {c : Char} (hc : beginsOperand c) (cs : List Char) (position : Nat) :
    flag ⟨f.wire.toList ++ c :: cs, position⟩ = (f, ⟨c :: cs, position + Text.byteSize f.wire.toList⟩) := by
  have hnone := forall_beginsOperand (P := fun c => Flag.ofLetter? c = none) (by decide) hc
  cases f with
  | plain =>
    change flag ⟨c :: cs, position⟩ = (.plain, ⟨c :: cs, position⟩)
    unfold flag
    split
    · rename_i heq
      obtain ⟨rfl, _⟩ := List.cons.inj heq
      rw [hnone]
    · rfl
  | _ => rfl

/-- A flag is read in front of a spelling of an operand. -/
theorem flag_of_spelled (f : Flag) {o : Operand} {text : List Char} (h : o.Spelled text) (rest : List Char)
    (position : Nat) :
    flag ⟨f.wire.toList ++ (text ++ rest), position⟩ = (f, ⟨text ++ rest, position + Text.byteSize f.wire.toList⟩) := by
  obtain ⟨c, cs, rfl, hc⟩ := h.head
  exact flag_wire f hc (cs ++ rest) position

/-- What may follow a condition may follow its operator and right operand, with or without a hit count. -/
theorem closes_hits {hits : UInt32} {text rest : List Char} (h : Condition.HitsSpelled hits text)
    (hrest : ∀ c ∈ rest.head?, closesCondition c) :
    ∀ c ∈ (text ++ rest).head?, closesOperand c ∧ beginsOperator c = false := by
  intro c hc
  cases h with
  | none =>
    have := hrest c hc
    simp_all [closesCondition]
  | count _ =>
    rw [← Option.mem_some.mp hc]
    decide

/-- An operator may follow an operand. -/
theorem closes_spelling (op : Operator) (rest : List Char) : ∀ c ∈ (op.spelling.toList ++ rest).head?, closesOperand c := by
  intro c hc
  obtain ⟨c', cs, hspelling, hc'⟩ : ∃ c cs, op.spelling.toList = c :: cs ∧ closesOperand c := by
    cases op with
    | compare op => cases op <;> exact ⟨_, _, rfl, by decide⟩
    | multiply => exact ⟨_, _, rfl, by decide⟩
    | divide => exact ⟨_, _, rfl, by decide⟩
  rw [hspelling] at hc
  rwa [← Option.mem_some.mp hc]

/-- An operator may follow the left operand, and so may what follows a condition without one. -/
theorem closes_right {right? : Option (Operator × Operand)} {text rest : List Char}
    (h : Condition.RightSpelled right? text) (hrest : ∀ c ∈ rest.head?, closesOperand c) :
    ∀ c ∈ (text ++ rest).head?, closesOperand c := by
  cases h with
  | none => exact hrest
  | @some op operand text _ =>
    rw [List.append_assoc]
    exact closes_spelling op (text ++ rest)

/-- Every spelling of a condition is read as the condition. -/
theorem condition_of_spelled {line : Condition} {text rest : List Char} (h : line.Spelled text)
    (hrest : ∀ c ∈ rest.head?, closesCondition c) (position : Nat) :
    condition ⟨text ++ rest, position⟩ = .ok (line, ⟨rest, position + Text.byteSize text⟩) := by
  obtain ⟨hleft, hright, hhits, hline⟩ := h
  rename_i left right hits
  have hafterRight := closes_hits hhits hrest
  have hafterLeft := closes_right hright fun c hc => (hafterRight c hc).1
  have hafterHits : ∀ c ∈ rest.head?, c ≠ '.' := by
    intro c hc
    have := hrest c hc
    simp_all [closesCondition]
  have hflag := flag_of_spelled line.flag hleft (right ++ (hits ++ rest)) position
  have hcheck : (!line.flag.isSource && !line.right?.any (·.1.isComparison)) = false := by
    rw [← Bool.not_or, ← Condition.isWellFormed, hline]
    rfl
  rw [condition]
  simp only [List.append_assoc, hflag, operand_of_spelled hleft hafterLeft, rightSide_of_spelled hright hafterRight,
    hitCount_of_spelled hhits hafterHits, bind, Except.bind, hcheck, Bool.false_eq_true, if_false, pure, Except.pure,
    Text.byteSize_append, Nat.add_assoc]

/-- A condition that is read is well-formed. -/
theorem isWellFormed_of_condition {start cursor : WireCursor} {line : Condition} (h : condition start = .ok (line, cursor)) :
    line.isWellFormed := by
  unfold condition at h
  generalize start.flag = first at h
  obtain ⟨flag, cursor₀⟩ := first
  obtain ⟨⟨left, cursor₁⟩, _, h⟩ := bind_eq_ok.mp h
  obtain ⟨⟨right?, cursor₂⟩, _, h⟩ := bind_eq_ok.mp h
  simp only at h
  split at h
  · cases h
  · rename_i hcheck
    obtain ⟨⟨hits, cursor₃⟩, _, h⟩ := bind_eq_ok.mp h
    obtain ⟨rfl, _⟩ := Prod.mk.inj (Except.ok.inj h)
    rw [← Bool.not_or, Bool.not_eq_true, Bool.not_eq_false'] at hcheck
    exact hcheck

end WireCursor

end TriggerScript
