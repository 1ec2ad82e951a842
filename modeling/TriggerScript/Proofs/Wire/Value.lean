import TriggerScript.Proofs.Number
import TriggerScript.Proofs.Lowering.Steps
import TriggerScript.Proofs.Wire.Condition

/-!
# Values are read back

A number behind a minus sign is read as its magnitude first. The least 64-bit integer has a magnitude that is no 64-bit
integer, so a value with this number can be written and not be read. Every other value that has a term is read back, and no
value is ever read as another one.
-/

namespace TriggerScript

/-! ## Numbers with a sign -/

/-- A number that is not negative is written as its digits. -/
theorem toList_toString_of_nonneg {n : Int} (h : 0 ≤ n) : (toString n).toList = Nat.toDigits 10 n.toNat := by
  rw [Int.toString_eq_repr, Int.repr_eq_if, if_pos h]
  simp [Nat.repr]

/-- A negative number is written as a minus sign and the digits of its absolute value. -/
theorem toList_toString_of_neg {n : Int} (h : n < 0) : (toString n).toList = '-' :: Nat.toDigits 10 (-n).toNat := by
  rw [Int.toString_eq_repr, Int.repr_eq_if, if_neg (by omega)]
  simp [Nat.repr]

namespace Text

/-- Digits are read as the number they spell, if it fits into 64 bits. -/
theorem Spells.readInt64? {base n : Nat} {digits : List Char} (h : Spells base digits n) (hn : n ≤ maxInt64) :
    readInt64? base digits = some (Int64.ofNat n) := by
  rw [Text.readInt64?, h.readNat? hn, Option.map_some]

/-- A number above the largest is refused. -/
theorem Spells.readInt64?_eq_none {base n : Nat} {digits : List Char} (h : Spells base digits n) (hn : maxInt64 < n) :
    Text.readInt64? base digits = none := by
  have hnone : Text.readNat? base maxInt64 digits = none := by
    rw [Text.readNat?, if_neg (by simpa using h.1), h.2, Option.filter_some]
    exact if_neg (by simpa using hn)
  rw [Text.readInt64?, hnone, Option.map_none]

/-- A number that is read without a sign is not the least one. -/
theorem ne_minValue_of_readInt64? {base : Nat} {digits : List Char} {value : Int64}
    (h : readInt64? base digits = some value) : value ≠ Int64.minValue := by
  obtain ⟨n, hn, rfl⟩ := Option.map_eq_some_iff.mp h
  have hle := (spells_of_readNat? hn).2
  intro heq
  have hint := congrArg Int64.toInt heq
  unfold maxInt64 at hle
  rw [Int64.toInt_ofNat_of_lt (by omega), Int64.toInt_minValue] at hint
  omega

end Text

namespace WireCursor

/-- Digits that mean no number are refused. -/
theorem digits_of_spells_none {α : Type} {base n : Nat} {meaning : List Char → Option α} {digits rest : List Char}
    (hdigits : Text.Spells base digits n) (hmeaning : meaning digits = none)
    (hrest : ∀ c ∈ rest.head?, Text.isDigit base c = false) (start position : Nat) :
    (WireCursor.mk (digits ++ rest) position).digits base meaning start =
      .error (.invalidNumber (String.ofList digits) start) := by
  simp only [WireCursor.digits]
  rw [hdigits.takeWhile_append hrest, hmeaning]

/-- A text that begins with no minus sign is read as a number without one. -/
theorem signed_of_ne_minus {cs : List Char} (h : cs.head? ≠ some '-') (position : Nat) :
    signed ⟨cs, position⟩ = (WireCursor.mk cs position).digits 10 (Text.readInt64? 10) position := by
  unfold signed
  split
  · rename_i heq
    subst heq
    exact absurd rfl h
  · rfl

/-- An integer that is written is read back, unless it is the least one. -/
theorem signed_toString {value : Int64} (h : value ≠ Int64.minValue) {rest : List Char}
    (hrest : ∀ c ∈ rest.head?, Text.isDigit 10 c = false) (position : Nat) :
    signed ⟨(toString value.toInt).toList ++ rest, position⟩ =
      .ok (value, ⟨rest, position + Text.byteSize (toString value.toInt).toList⟩) := by
  have hvalue := Int64.ofInt_toInt value
  have hle := value.toInt_le
  have hge := value.minValue_le_toInt
  have hmin : value.toInt ≠ Int64.minValue.toInt := fun heq => h (Int64.toInt_inj.mp heq)
  rw [Int64.toInt_minValue] at hge hmin
  rw [Int64.toInt_maxValue] at hle
  rcases Int.lt_or_le value.toInt 0 with hneg | hnonneg
  · have hspells : Text.Spells 10 (Nat.toDigits 10 (-value.toInt).toNat) (-value.toInt).toNat :=
      Text.spells_toDigits (by decide) (by decide) _
    have hread := hspells.readInt64? (by unfold Text.maxInt64; omega)
    have hnegated : -Int64.ofNat (-value.toInt).toNat = value := by
      rw [← Int64.ofInt_eq_ofNat, Int.toNat_of_nonneg (by omega), ← Int64.neg_ofInt, hvalue, Int64.neg_neg]
    rw [toList_toString_of_neg hneg, List.cons_append, signed]
    simp only [skip]
    rw [digits_of_spells hspells (by rw [hread, Option.map_some, hnegated]) hrest, Text.byteSize_cons, Nat.add_assoc]
  · have hspells : Text.Spells 10 (Nat.toDigits 10 value.toInt.toNat) value.toInt.toNat :=
      Text.spells_toDigits (by decide) (by decide) _
    have hread := hspells.readInt64? (by unfold Text.maxInt64; omega)
    have hnat : Int64.ofNat value.toInt.toNat = value := by
      rw [← Int64.ofInt_eq_ofNat, Int.toNat_of_nonneg hnonneg, hvalue]
    have hminus : (Nat.toDigits 10 value.toInt.toNat ++ rest).head? ≠ some '-' := by
      obtain ⟨c, cs, hcs⟩ := List.exists_cons_of_ne_nil hspells.1
      rw [hcs]
      rintro heq
      have hdigit := hspells.all_digits c (by rw [hcs]; exact List.mem_cons_self)
      rw [Option.some.inj heq] at hdigit
      exact absurd hdigit (by decide)
    rw [toList_toString_of_nonneg hnonneg, signed_of_ne_minus hminus,
      digits_of_spells hspells (by rw [hread, hnat]) hrest]

/-- Reading gives every integer but the least one. -/
theorem ne_minValue_of_signed {cursor next : WireCursor} {value : Int64} (h : signed cursor = .ok (value, next)) :
    value ≠ Int64.minValue := by
  have hdigits : ∀ {cursor : WireCursor} {meaning : List Char → Option Int64} {start : Nat},
      (∀ digits value, meaning digits = some value → value ≠ Int64.minValue) →
      cursor.digits 10 meaning start = .ok (value, next) → value ≠ Int64.minValue := by
    intro cursor meaning start hmeaning h
    simp only [digits] at h
    split at h
    · rename_i value' hvalue
      rw [← (Prod.mk.inj (Except.ok.inj h)).1]
      exact hmeaning _ value' hvalue
    · cases h
  unfold signed at h
  split at h
  · refine hdigits (fun digits value hvalue => ?_) h
    obtain ⟨magnitude, hmagnitude, rfl⟩ := Option.map_eq_some_iff.mp hvalue
    exact neg_ne_minValue (Text.ne_minValue_of_readInt64? hmagnitude)
  · exact hdigits (fun digits value hvalue => Text.ne_minValue_of_readInt64? hvalue) h

/-- The digits of the least integer. -/
def leastMagnitude : String := "9223372036854775808"

/-- The least integer is refused when it is read. -/
theorem signed_toString_minValue {rest : List Char} (hrest : ∀ c ∈ rest.head?, Text.isDigit 10 c = false)
    (position : Nat) :
    signed ⟨(toString Int64.minValue.toInt).toList ++ rest, position⟩ =
      .error (.invalidNumber leastMagnitude position) := by
  have hspells : Text.Spells 10 (Nat.toDigits 10 9223372036854775808) 9223372036854775808 :=
    Text.spells_toDigits (by decide) (by decide) _
  have hread := hspells.readInt64?_eq_none (by decide)
  have hdigits : String.ofList (Nat.toDigits 10 9223372036854775808) = leastMagnitude := by decide
  rw [Int64.toInt_minValue, toList_toString_of_neg (by decide), List.cons_append, signed]
  simp only [skip]
  exact (digits_of_spells_none hspells (by rw [hread, Option.map_none]) hrest _ _).trans (by rw [hdigits])

end WireCursor

/-! ## Terms -/

/-- The number of a term that is written with a sign. -/
def ValueTerm.number : ValueTerm → Int64
  | .scaled _ multiplier => multiplier
  | .constant value => value

namespace Value

/-- What is read behind the operand of a term. -/
def readFactor (operand : Operand) : WireReader ValueTerm := fun cursor =>
  match cursor.rest with
  | '*' :: _ => (cursor.skip 1).signed.map fun read => (.scaled operand read.1, read.2)
  | _ => .ok (.scaled operand 1, cursor)

/-- The spelling of an operand begins a term that is no constant. -/
theorem readTerm_of_spelled {operand : Operand} {text rest : List Char} (hoperand : operand.Spelled text)
    (hrest : ∀ c ∈ rest.head?, closesOperand c) (position : Nat) :
    readTerm ⟨text ++ rest, position⟩ = readFactor operand ⟨rest, position + Text.byteSize text⟩ := by
  obtain ⟨c, cs, hcs, hc⟩ := hoperand.head
  have hmark := forall_beginsOperand (P := fun c => c ≠ 'v' ∧ c ≠ 'V') (by decide) hc
  have hread := WireCursor.operand_of_spelled hoperand hrest position
  unfold readTerm
  rw [hread]
  split
  · rename_i heq
    rw [hcs] at heq
    exact absurd (List.cons.inj heq).1 hmark.1
  · rename_i heq
    rw [hcs] at heq
    exact absurd (List.cons.inj heq).1 hmark.2
  · rfl

/-- A star is followed by the factor of an operand. -/
theorem readFactor_star (operand : Operand) (cs : List Char) (position : Nat) :
    readFactor operand ⟨'*' :: cs, position⟩ =
      (WireCursor.mk cs (position + '*'.utf8Size)).signed.map fun read => (.scaled operand read.1, read.2) :=
  rfl

/-- The letter of a constant is followed by its number. -/
theorem readTerm_constant (cs : List Char) (position : Nat) :
    readTerm ⟨'v' :: cs, position⟩ =
      (WireCursor.mk cs (position + 'v'.utf8Size)).signed.map fun read => (.constant read.1, read.2) :=
  rfl

/-- Without a star, an operand is taken once. -/
theorem readFactor_none (operand : Operand) {rest : List Char} (h : ∀ c ∈ rest.head?, c ≠ '*') (position : Nat) :
    readFactor operand ⟨rest, position⟩ = .ok (.scaled operand 1, ⟨rest, position⟩) := by
  unfold readFactor
  split
  · rename_i heq
    subst heq
    exact absurd rfl (h '*' rfl)
  · rfl

/-- A multiplier of one is not written. -/
theorem toList_wire_one (operand : Operand) : (ValueTerm.scaled operand 1).wire.toList = operand.wire.toList := by
  rw [ValueTerm.wire, if_pos rfl]

/-- An operand with a factor is written with a star between them. -/
theorem toList_wire_scaled (operand : Operand) {multiplier : Int64} (h : multiplier ≠ 1) :
    (ValueTerm.scaled operand multiplier).wire.toList =
      operand.wire.toList ++ '*' :: (toString multiplier.toInt).toList := by
  rw [ValueTerm.wire, if_neg h]
  simp

/-- A constant is written as its letter and its number. -/
theorem toList_wire_constant (value : Int64) :
    (ValueTerm.constant value).wire.toList = 'v' :: (toString value.toInt).toList := by
  rw [ValueTerm.wire]
  simp

/-- A star ends an operand. -/
theorem star_closes (cs : List Char) : ∀ c ∈ ('*' :: cs).head?, closesOperand c := by
  intro c hc
  rw [← Option.mem_some.mp hc]
  decide

section

variable {term : ValueTerm} {rest : List Char} (hrest : ∀ c ∈ rest.head?, c = '_')
include hrest

/-- An underscore is no digit. -/
theorem isDigit_of_underscore : ∀ c ∈ rest.head?, Text.isDigit 10 c = false := by
  intro c hc
  rw [hrest c hc]
  decide

/-- A term that is written in front of an underscore or the end is read back, unless its number is the least one. -/
theorem readTerm_wire (h : term.number ≠ Int64.minValue) (position : Nat) :
    readTerm ⟨term.wire.toList ++ rest, position⟩ =
      .ok (term, ⟨rest, position + Text.byteSize term.wire.toList⟩) := by
  have hdigits := isDigit_of_underscore hrest
  cases term with
  | scaled operand multiplier =>
    have hleast : multiplier ≠ Int64.minValue := h
    by_cases hone : multiplier = 1
    · subst hone
      have hcloses : ∀ c ∈ rest.head?, closesOperand c := by
        intro c hc
        rw [hrest c hc]
        decide
      have hstar : ∀ c ∈ rest.head?, c ≠ '*' := by
        intro c hc
        rw [hrest c hc]
        decide
      rw [toList_wire_one, readTerm_of_spelled operand.spelled_wire hcloses, readFactor_none operand hstar]
    · rw [toList_wire_scaled operand hone, List.append_assoc, List.cons_append,
        readTerm_of_spelled operand.spelled_wire (star_closes _), readFactor_star, WireCursor.signed_toString hleast hdigits]
      simp [Except.map, Nat.add_assoc]
  | constant value =>
    have hleast : value ≠ Int64.minValue := h
    rw [toList_wire_constant, List.cons_append, readTerm_constant, WireCursor.signed_toString hleast hdigits]
    simp [Except.map, Nat.add_assoc]

/-- A term with the least number is refused. -/
theorem readTerm_wire_minValue (h : term.number = Int64.minValue) (position : Nat) :
    ∃ place, readTerm ⟨term.wire.toList ++ rest, position⟩ = .error (.invalidNumber WireCursor.leastMagnitude place) := by
  have hdigits := isDigit_of_underscore hrest
  cases term with
  | scaled operand multiplier =>
    obtain rfl : multiplier = Int64.minValue := h
    rw [toList_wire_scaled operand (by decide), List.append_assoc, List.cons_append,
      readTerm_of_spelled operand.spelled_wire (star_closes _), readFactor_star,
      WireCursor.signed_toString_minValue hdigits]
    exact ⟨_, rfl⟩
  | constant value =>
    obtain rfl : value = Int64.minValue := h
    rw [toList_wire_constant, List.cons_append, readTerm_constant, WireCursor.signed_toString_minValue hdigits]
    exact ⟨_, rfl⟩

end

/-! ## Values -/

/-- Terms are written with underscores between them. -/
theorem toList_wire_cons_cons (term next : ValueTerm) (terms : List ValueTerm) :
    (Value.mk (term :: next :: terms)).wire.toList = term.wire.toList ++ '_' :: (Value.mk (next :: terms)).wire.toList := by
  simp [wire]

theorem underscore_head (cs : List Char) : ∀ c ∈ ('_' :: cs).head?, c = '_' := by
  intro c hc
  exact (Option.mem_some.mp hc).symm

/-- One step of reading: a term that is read, and an underscore behind it. -/
theorem readTerms_step {term : ValueTerm} (h : term.number ≠ Int64.minValue) (bound : Nat) (rest : List Char)
    (position : Nat) :
    readTerms (bound + 1) ⟨term.wire.toList ++ '_' :: rest, position⟩ =
      (readTerms bound ⟨rest, position + Text.byteSize term.wire.toList + '_'.utf8Size⟩).map fun read =>
        (term :: read.1, read.2) := by
  rw [readTerms, readTerm_wire (underscore_head rest) h]
  rfl

/-- Written terms are read back if none of them has the least number. -/
theorem readTerms_wire {terms : List ValueTerm} (hne : terms ≠ []) (h : ∀ term ∈ terms, term.number ≠ Int64.minValue)
    {bound : Nat} (hbound : terms.length ≤ bound) (position : Nat) :
    ∃ place, readTerms bound ⟨(Value.mk terms).wire.toList, position⟩ = .ok (terms, ⟨[], place⟩) := by
  induction terms generalizing bound position with
  | nil => exact absurd rfl hne
  | cons term terms ih =>
    obtain ⟨bound, rfl⟩ : ∃ n, bound = n + 1 := ⟨bound - 1, by simp only [List.length_cons] at hbound; omega⟩
    have hterm := h term List.mem_cons_self
    cases terms with
    | nil =>
      have hnil : ∀ c ∈ ([] : List Char).head?, c = '_' := by simp
      have hread := readTerm_wire hnil hterm position
      rw [List.append_nil] at hread
      have hwire : (Value.mk [term]).wire = term.wire := by simp [wire]
      rw [hwire, readTerms, hread]
      exact ⟨_, rfl⟩
    | cons next terms =>
      rw [toList_wire_cons_cons, readTerms_step hterm]
      obtain ⟨place, hread⟩ := ih (by simp) (fun t ht => h t (List.mem_cons_of_mem _ ht)) (by simpa using hbound)
        (position + Text.byteSize term.wire.toList + '_'.utf8Size)
      rw [hread]
      exact ⟨place, rfl⟩

/-- Written terms are refused if one of them has the least number, whatever stands behind it. -/
theorem readTerms_wire_minValue {terms : List ValueTerm} (h : ∃ term ∈ terms, term.number = Int64.minValue)
    {bound : Nat} (hbound : terms.length ≤ bound) (position : Nat) :
    ∃ place, readTerms bound ⟨(Value.mk terms).wire.toList, position⟩ =
      .error (.invalidNumber WireCursor.leastMagnitude place) := by
  induction terms generalizing bound position with
  | nil => simp at h
  | cons term terms ih =>
    obtain ⟨bound, rfl⟩ : ∃ n, bound = n + 1 := ⟨bound - 1, by simp only [List.length_cons] at hbound; omega⟩
    by_cases hterm : term.number = Int64.minValue
    · obtain ⟨rest, hrest, hwire⟩ : ∃ rest : List Char, (∀ c ∈ rest.head?, c = '_') ∧
          (Value.mk (term :: terms)).wire.toList = term.wire.toList ++ rest := by
        cases terms with
        | nil => exact ⟨[], by simp, by simp [wire]⟩
        | cons next terms => exact ⟨_, underscore_head _, toList_wire_cons_cons term next terms⟩
      obtain ⟨place, hread⟩ := readTerm_wire_minValue hrest hterm position
      rw [hwire, readTerms, hread]
      exact ⟨place, rfl⟩
    · obtain ⟨least, hmem, hleast⟩ := h
      have hmem : least ∈ terms := by
        rcases List.mem_cons.mp hmem with rfl | hmem
        · exact absurd hleast hterm
        · exact hmem
      obtain ⟨next, terms, rfl⟩ := List.exists_cons_of_ne_nil (List.ne_nil_of_mem hmem)
      rw [toList_wire_cons_cons, readTerms_step hterm]
      obtain ⟨place, hread⟩ := ih ⟨least, hmem, hleast⟩ (by simpa using hbound)
        (position + Text.byteSize term.wire.toList + '_'.utf8Size)
      rw [hread]
      exact ⟨place, rfl⟩

/-- Each term has at least one character, so the length of the text is enough of a bound. -/
theorem length_terms_le (value : Value) : value.terms.length ≤ value.wire.toList.length + 1 := by
  obtain ⟨terms⟩ := value
  induction terms with
  | nil => simp
  | cons term terms ih =>
    cases terms with
    | nil => simp
    | cons next terms =>
      rw [toList_wire_cons_cons]
      simp only [List.length_cons, List.length_append] at ih ⊢
      omega

/-- A value with a term is read back if none of its numbers is the least one. -/
theorem ofWire_wire {value : Value} (hne : value.terms ≠ []) (h : ∀ term ∈ value.terms, term.number ≠ Int64.minValue) :
    ofWire value.wire = .ok value := by
  obtain ⟨place, hread⟩ := readTerms_wire hne h value.length_terms_le 0
  rw [ofWire, WireCursor.ofString]
  simp only [hread]
  rfl

/-- A value with the least number is refused. -/
theorem ofWire_wire_minValue {value : Value} (h : ∃ term ∈ value.terms, term.number = Int64.minValue) :
    ∃ place, ofWire value.wire = .error (.invalidNumber WireCursor.leastMagnitude place) := by
  obtain ⟨place, hread⟩ := readTerms_wire_minValue h value.length_terms_le 0
  rw [ofWire, WireCursor.ofString]
  simp only [hread]
  exact ⟨place, rfl⟩

/-! ## Values that are read -/

/-- The number of a term that was read is not the least one. -/
theorem number_ne_minValue_of_readTerm {cursor next : WireCursor} {term : ValueTerm}
    (h : readTerm cursor = .ok (term, next)) : term.number ≠ Int64.minValue := by
  unfold readTerm at h
  split at h
  · obtain ⟨⟨value, _⟩, hvalue, h⟩ := map_eq_ok.mp h
    obtain ⟨rfl, _⟩ := Prod.mk.inj h
    exact WireCursor.ne_minValue_of_signed hvalue
  · obtain ⟨⟨value, _⟩, hvalue, h⟩ := map_eq_ok.mp h
    obtain ⟨rfl, _⟩ := Prod.mk.inj h
    exact WireCursor.ne_minValue_of_signed hvalue
  · obtain ⟨⟨operand, _⟩, _, h⟩ := bind_eq_ok.mp h
    simp only at h
    split at h
    · obtain ⟨⟨multiplier, _⟩, hmultiplier, h⟩ := map_eq_ok.mp h
      obtain ⟨rfl, _⟩ := Prod.mk.inj h
      exact WireCursor.ne_minValue_of_signed hmultiplier
    · obtain ⟨rfl, _⟩ := Prod.mk.inj (Except.ok.inj h)
      have hone : (1 : Int64) ≠ Int64.minValue := by decide
      exact hone

/-- Terms that were read are some, and none of their numbers is the least one. -/
theorem terms_of_readTerms {bound : Nat} {cursor next : WireCursor} {terms : List ValueTerm}
    (h : readTerms bound cursor = .ok (terms, next)) :
    terms ≠ [] ∧ ∀ term ∈ terms, term.number ≠ Int64.minValue := by
  induction bound generalizing cursor next terms with
  | zero => cases h
  | succ bound ih =>
    rw [readTerms] at h
    obtain ⟨⟨term, _⟩, hterm, h⟩ := bind_eq_ok.mp h
    have hnumber := number_ne_minValue_of_readTerm hterm
    simp only at h
    split at h
    · obtain ⟨⟨terms, _⟩, hterms, h⟩ := bind_eq_ok.mp h
      obtain ⟨rfl, _⟩ := Prod.mk.inj (Except.ok.inj h)
      exact ⟨List.cons_ne_nil _ _, List.forall_mem_cons.mpr ⟨hnumber, (ih hterms).2⟩⟩
    · obtain ⟨rfl, _⟩ := Prod.mk.inj (Except.ok.inj h)
      exact ⟨List.cons_ne_nil _ _, List.forall_mem_singleton.mpr hnumber⟩

/-- A value that is read has a term, and none of its numbers is the least one. -/
theorem terms_of_ofWire {text : String} {value : Value} (h : ofWire text = .ok value) :
    value.terms ≠ [] ∧ ∀ term ∈ value.terms, term.number ≠ Int64.minValue := by
  obtain ⟨⟨terms, _⟩, hterms, h⟩ := bind_eq_ok.mp h
  obtain ⟨_, _, h⟩ := bind_eq_ok.mp h
  obtain rfl := Except.ok.inj h
  exact terms_of_readTerms hterms

/-! ## Lowered sums -/

/-- The number of a lowered term is not the least one. -/
theorem number_ne_minValue_of_valueTerm? {term : SumTerm} {lowered : ValueTerm} (h : term.valueTerm? = some lowered) :
    lowered.number ≠ Int64.minValue := by
  rw [SumTerm.valueTerm?, Option.map_eq_some_iff] at h
  obtain ⟨factor, _, rfl⟩ := h
  have hfactor : Int64.ofNat factor.toNat ≠ Int64.minValue := by
    intro heq
    have hint := congrArg Int64.toInt heq
    have hlt := factor.toNat_lt
    rw [Int64.toInt_ofNat_of_lt (by omega), Int64.toInt_minValue] at hint
    omega
  cases term.negative with
  | false => exact hfactor
  | true => exact neg_ne_minValue hfactor

/-- None of the numbers of lowered terms is the least one. -/
theorem number_ne_minValue_of_mapM {terms : List SumTerm} {lowered : List ValueTerm}
    (h : terms.mapM SumTerm.valueTerm? = some lowered) : ∀ term ∈ lowered, term.number ≠ Int64.minValue := by
  induction terms generalizing lowered with
  | nil =>
    obtain rfl := Option.some.inj h
    exact List.forall_mem_nil _
  | cons term terms ih =>
    rw [List.mapM_cons] at h
    obtain ⟨first, hfirst, h⟩ := Option.bind_eq_some_iff.mp h
    obtain ⟨others, hothers, h⟩ := Option.bind_eq_some_iff.mp h
    obtain rfl := Option.some.inj h
    intro t ht
    rcases List.mem_cons.mp ht with rfl | ht
    · exact number_ne_minValue_of_valueTerm? hfirst
    · exact ih hothers t ht

/-- A value that a sum is lowered to has a term, and only its constant may be the least number. -/
theorem terms_of_ofExpr {e : Expr} {value : Value} (h : ofExpr e = .ok value) :
    value.terms ≠ [] ∧ ∀ term ∈ value.terms, term.number = Int64.minValue → term = .constant Int64.minValue := by
  obtain ⟨sum, terms, _, hterms, hvalue⟩ := ofExpr_eq_ok h
  have hlowered := number_ne_minValue_of_mapM hterms
  refine ⟨terms_ne_nil h, fun term hterm hnumber => ?_⟩
  rw [hvalue] at hterm
  split at hterm
  · rcases List.mem_append.mp hterm with hterm | hterm
    · exact absurd hnumber (hlowered term hterm)
    · obtain rfl := List.mem_singleton.mp hterm
      exact congrArg ValueTerm.constant hnumber
  · exact absurd hnumber (hlowered term hterm)

/-- Exactly the values with a term and without the least number are read back from what they are written as. No value is
read as another one. A value that a sum is lowered to has a term, so it is read back unless the constants of the sum make the
least number. -/
theorem reads_back_iff_no_least (value : Value) :
    (ofWire value.wire = .ok value ↔ value.terms ≠ [] ∧ ∀ term ∈ value.terms, term.number ≠ Int64.minValue) ∧
      (∀ other, ofWire value.wire = .ok other → other = value) ∧
      ∀ e, ofExpr e = .ok value →
        value.terms ≠ [] ∧ (ofWire value.wire = .ok value ↔ .constant Int64.minValue ∉ value.terms) := by
  have hread : ∀ other, ofWire value.wire = .ok other →
      value.terms ≠ [] ∧ ∀ term ∈ value.terms, term.number ≠ Int64.minValue := by
    intro other h
    refine ⟨fun hnil => ?_, fun term hterm hnumber => ?_⟩
    · obtain ⟨terms⟩ := value
      obtain rfl : terms = [] := hnil
      cases h
    · obtain ⟨place, hrefused⟩ := ofWire_wire_minValue ⟨term, hterm, hnumber⟩
      rw [hrefused] at h
      cases h
  refine ⟨⟨hread value, fun h => ofWire_wire h.1 h.2⟩, fun other h => ?_, fun e he => ?_⟩
  · have hsame := ofWire_wire (hread other h).1 (hread other h).2
    rw [h] at hsame
    exact Except.ok.inj hsame
  · obtain ⟨hne, hleast⟩ := terms_of_ofExpr he
    refine ⟨hne, fun h hmem => (hread value h).2 _ hmem rfl, fun h => ofWire_wire hne fun term hterm hnumber => ?_⟩
    rw [hleast term hterm hnumber] at hterm
    exact h hterm

/-- Three times a byte, and as negative a constant as can be read. -/
def sample : Value :=
  { terms := [.scaled (.memory (.ofSize .byte 1)) 3, .constant (-9223372036854775807)] }

/-- A value whose number is one more than the least one is read back. -/
theorem reads_back_iff_no_least_sample :
    sample.wire = "0xH000001*3_v-9223372036854775807" ∧ ofWire sample.wire = .ok sample := by
  have hlowered : ofExpr (.arithmetic {} .subtract
      (.arithmetic {} .multiply (.memory {} (.ofSize .byte 1)) (.integer {} 3)) (.integer {} 9223372036854775807)) =
        .ok sample := rfl
  exact ⟨by decide, ((reads_back_iff_no_least sample).2.2 _ hlowered).2.mpr (by decide)⟩

/-- The least number alone is a value that is written and not read. -/
theorem least_constant_is_refused :
    ofExpr (.integer {} Int64.minValue) = .ok { terms := [.constant Int64.minValue] } ∧
      (Value.mk [.constant Int64.minValue]).wire = "v-9223372036854775808" ∧
      ofWire "v-9223372036854775808" = .error (.invalidNumber "9223372036854775808" 1) :=
  ⟨rfl, by decide, rfl⟩

end Value

end TriggerScript
