import TriggerScript.Number

/-!
# Numbers that fit and digits that spell them

Both conversions of integers give the number itself back or nothing at all. A number has many spellings in a base: the digits
that printing gives it, and these behind any number of zeros. Each of them is read back as the number.
-/

namespace TriggerScript

/-! ## Integers -/

/-- What fits into 64 bits is kept. -/
theorem int64?_eq_some_iff {n : Int} {x : Int64} : int64? n = some x ↔ x.toInt = n := by
  rw [int64?]
  constructor
  · intro h
    split at h
    · rename_i hn
      rw [← Option.some.inj h]
      rw [Int64.toInt_minValue, Int64.toInt_maxValue] at hn
      exact Int64.toInt_ofInt_of_le hn.1 (by omega)
    · cases h
  · rintro rfl
    rw [if_pos ⟨x.minValue_le_toInt, x.toInt_le⟩, Int64.ofInt_toInt]

/-- The least integer is the negative of no other. -/
theorem neg_ne_minValue {value : Int64} (h : value ≠ Int64.minValue) : -value ≠ Int64.minValue := by
  intro heq
  refine h ?_
  rw [← @Int64.neg_neg value, heq]
  rfl

/-- What fits into 32 bits without a sign is kept. -/
theorem uint32?_eq_some_iff {n : Int} {x : UInt32} : uint32? n = some x ↔ (x.toNat : Int) = n := by
  rw [uint32?]
  constructor
  · intro h
    split at h
    · rename_i hn
      rw [← Option.some.inj h, UInt32.toNat_ofNat_of_lt' (by omega)]
      omega
    · cases h
  · rintro rfl
    have hx : (x.toNat : Int) < UInt32.size := Int.ofNat_lt.mpr x.toNat_lt
    rw [if_pos ⟨Int.natCast_nonneg _, hx⟩, Int.toNat_natCast, UInt32.ofNat_toNat]

/-! ## Digits -/

namespace Text

/-- Digits of a base, at least one, that spell a number. -/
def Spells (base : Nat) (digits : List Char) (n : Nat) : Prop :=
  digits ≠ [] ∧ valueOfDigits? base 0 digits = some n

/-- The digit that printing chooses has its value in every base above it. -/
theorem digitValue?_digitChar {base d : Nat} (hbase : d < base) (hd : d < 16) : digitValue? base d.digitChar = some d := by
  have hhex : ∀ d < 16, digitValue? 16 d.digitChar = some d := by decide
  have h := hhex d hd
  unfold digitValue? at h ⊢
  rw [Option.filter_eq_some_iff] at h ⊢
  exact ⟨h.1, decide_eq_true hbase⟩

/-- One more digit multiplies the number by the base and adds the digit. -/
theorem valueOfDigits?_concat (base value : Nat) (cs : List Char) (c : Char) :
    valueOfDigits? base value (cs ++ [c]) =
      (valueOfDigits? base value cs).bind fun n => (digitValue? base c).map (n * base + ·) := by
  induction cs generalizing value with
  | nil =>
    simp only [List.nil_append, valueOfDigits?]
    cases digitValue? base c <;> rfl
  | cons c' cs ih =>
    simp only [List.cons_append, valueOfDigits?]
    cases digitValue? base c' with
    | none => rfl
    | some digit => exact ih _

/-- Printing spells the number. -/
theorem spells_toDigits {base : Nat} (hbase : 1 < base) (hbase' : base ≤ 16) (n : Nat) :
    Spells base (Nat.toDigits base n) n := by
  refine ⟨Nat.toDigits_ne_nil, ?_⟩
  induction n using Nat.strongRecOn with
  | ind n ih =>
    by_cases hn : n < base
    · rw [Nat.toDigits_of_lt_base hn, ← List.nil_append [n.digitChar], valueOfDigits?_concat,
        digitValue?_digitChar hn (by omega)]
      simp [valueOfDigits?]
    · have hmod : n % base < base := Nat.mod_lt n (by omega)
      rw [Nat.toDigits_of_base_le hbase (by omega), valueOfDigits?_concat,
        ih (n / base) (Nat.div_lt_self (by omega) hbase), digitValue?_digitChar hmod (by omega)]
      simp [Nat.div_add_mod']

/-- Zeros in front change nothing. -/
theorem Spells.zeros {base n : Nat} {digits : List Char} (hbase : 0 < base) (h : Spells base digits n) (count : Nat) :
    Spells base (List.replicate count '0' ++ digits) n := by
  refine ⟨fun heq => h.1 (List.append_eq_nil_iff.mp heq).2, ?_⟩
  induction count with
  | zero => exact h.2
  | succ count ih =>
    have hzero : digitValue? base '0' = some 0 := digitValue?_digitChar hbase (by decide)
    rw [List.replicate_succ, List.cons_append, valueOfDigits?, hzero]
    simpa using ih

/-- Hexadecimal digits of a least width spell the number. -/
theorem spells_hexDigits (width n : Nat) : Spells 16 (hexDigits width n) n :=
  (spells_toDigits (by decide) (by decide) n).zeros (by decide) _

/-- Spellings consist of digits. -/
theorem isDigit_of_valueOfDigits? {base value n : Nat} {digits : List Char}
    (h : valueOfDigits? base value digits = some n) : ∀ c ∈ digits, isDigit base c := by
  induction digits generalizing value with
  | nil =>
    intro c hc
    cases hc
  | cons c digits ih =>
    rw [valueOfDigits?] at h
    split at h
    · rename_i digit hdigit
      intro c' hc'
      rcases List.mem_cons.mp hc' with rfl | hc'
      · rw [isDigit, hdigit]
        rfl
      · exact ih h c' hc'
    · cases h

/-- What spells a number consists of digits. -/
theorem Spells.all_digits {base n : Nat} {digits : List Char} (h : Spells base digits n) : ∀ c ∈ digits, isDigit base c :=
  isDigit_of_valueOfDigits? h.2

/-- A spelling is read as its number, up to a largest one. -/
theorem Spells.readNat? {base largest n : Nat} {digits : List Char} (h : Spells base digits n) (hn : n ≤ largest) :
    readNat? base largest digits = some n := by
  rw [Text.readNat?, if_neg (by simpa using h.1), h.2, Option.filter_some, if_pos (decide_eq_true hn)]

/-- Digits are read as the number of 32 bits that they spell. -/
theorem Spells.readUInt32? {base : Nat} {digits : List Char} {x : UInt32} (h : Spells base digits x.toNat) :
    readUInt32? base digits = some x := by
  rw [Text.readUInt32?, h.readNat? (Nat.le_sub_one_of_lt x.toNat_lt), Option.map_some, UInt32.ofNat_toNat]

/-- Only spellings are read. -/
theorem spells_of_readNat? {base largest n : Nat} {digits : List Char} (h : readNat? base largest digits = some n) :
    Spells base digits n ∧ n ≤ largest := by
  unfold readNat? at h
  split at h
  · cases h
  · rename_i hne
    obtain ⟨hvalue, hle⟩ := Option.filter_eq_some_iff.mp h
    exact ⟨⟨by simpa using hne, hvalue⟩, of_decide_eq_true hle⟩

/-- Digits spell the number that is read from them. -/
theorem spells_of_readUInt32? {base : Nat} {digits : List Char} {x : UInt32} (h : readUInt32? base digits = some x) :
    Spells base digits x.toNat := by
  obtain ⟨n, hn, rfl⟩ := Option.map_eq_some_iff.mp h
  obtain ⟨hspells, hle⟩ := spells_of_readNat? hn
  rwa [UInt32.toNat_ofNat_of_lt' (Nat.lt_of_le_of_lt hle (by decide))]

/-- The characters of a class at the front of a text end where another one follows. -/
theorem takeWhile_append_of_head {p : Char → Bool} {front rest : List Char} (hfront : ∀ c ∈ front, p c)
    (hrest : ∀ c ∈ rest.head?, p c = false) : (front ++ rest).takeWhile p = front := by
  rw [List.takeWhile_append_of_pos hfront]
  cases rest with
  | nil => exact List.append_nil front
  | cons c rest => rw [List.takeWhile_cons_of_neg (by simp [hrest c rfl]), List.append_nil]

/-- Digits are cut off whole in front of what is no digit. -/
theorem Spells.takeWhile_append {base n : Nat} {digits rest : List Char} (h : Spells base digits n)
    (hrest : ∀ c ∈ rest.head?, isDigit base c = false) : (digits ++ rest).takeWhile (isDigit base) = digits :=
  takeWhile_append_of_head h.all_digits hrest

/-- Every text is cut into the characters of a class at its front and what follows them. -/
theorem exists_front (p : Char → Bool) (cs : List Char) :
    ∃ front rest, cs = front ++ rest ∧ (∀ c ∈ front, p c) ∧ ∀ c ∈ rest.head?, p c = false := by
  refine ⟨cs.takeWhile p, cs.dropWhile p, List.takeWhile_append_dropWhile.symm, ?_, ?_⟩
  · exact fun c hc => List.all_eq_true.mp List.all_takeWhile c hc
  · intro c hc
    have hnot := List.head?_dropWhile_not p cs
    rw [Option.mem_def.mp hc] at hnot
    simpa using hnot

/-- A digit of a smaller base is one of a larger base. -/
theorem isDigit_mono {base base' : Nat} {c : Char} (hbase : base ≤ base') (h : isDigit base c) : isDigit base' c := by
  unfold isDigit digitValue? at h ⊢
  obtain ⟨n, hn⟩ := Option.isSome_iff_exists.mp h
  rw [Option.filter_eq_some_iff] at hn
  refine Option.isSome_iff_exists.mpr ⟨n, Option.filter_eq_some_iff.mpr ⟨hn.1, ?_⟩⟩
  have := of_decide_eq_true hn.2
  exact decide_eq_true (by omega)

/-- What holds of all ASCII characters holds of a character that is one. -/
theorem forall_ascii {P : Char → Prop} (h : ∀ n < 128, P (Char.ofNat n)) {c : Char} (hc : c.toNat < 128) : P c := by
  have hchar := h c.toNat hc
  rwa [Char.ofNat_toNat] at hchar

/-- Digits are characters of one byte. -/
theorem isAscii_of_isDigit {base : Nat} {c : Char} (h : isDigit base c) : c.toNat < 128 := by
  unfold isDigit digitValue? at h
  obtain ⟨n, hn⟩ := Option.isSome_iff_exists.mp h
  have hvalue := (Option.filter_eq_some_iff.mp hn).1
  have hle : ∀ {first last : Char}, first ≤ c ∧ c ≤ last → last.toNat < 128 → c.toNat < 128 :=
    fun hrange hlast => Nat.lt_of_le_of_lt hrange.2 hlast
  split at hvalue
  · exact hle ‹_› (by decide)
  · split at hvalue
    · exact hle ‹_› (by decide)
    · split at hvalue
      · exact hle ‹_› (by decide)
      · cases hvalue

/-- What holds of all ASCII digits holds of all digits. -/
theorem forall_isDigit {base : Nat} {P : Char → Prop} (h : ∀ n < 128, isDigit base (Char.ofNat n) → P (Char.ofNat n))
    {c : Char} (hc : isDigit base c) : P c :=
  forall_ascii (P := fun c => isDigit base c → P c) h (isAscii_of_isDigit hc) hc

/-- Hexadecimal digits in upper case spell the same number. -/
theorem Spells.toUpper {n : Nat} {digits : List Char} (h : Spells 16 digits n) : Spells 16 (digits.map Char.toUpper) n := by
  have hdigit : ∀ c ∈ digits, digitValue? 16 c.toUpper = digitValue? 16 c := fun c hc =>
    forall_isDigit (P := fun c => digitValue? 16 c.toUpper = digitValue? 16 c) (by decide) (h.all_digits c hc)
  refine ⟨by simpa using h.1, ?_⟩
  rw [← h.2]
  generalize 0 = value
  clear h
  induction digits generalizing value with
  | nil => rfl
  | cons c digits ih =>
    rw [List.forall_mem_cons] at hdigit
    rw [List.map_cons, valueOfDigits?, valueOfDigits?, hdigit.1]
    cases digitValue? 16 c with
    | none => rfl
    | some digit => exact ih hdigit.2 _

/-- The decimal digits are the ASCII digits, with their values. -/
theorem digitValue?_ten (c : Char) : digitValue? 10 c = if c.isDigit then some (c.toNat - '0'.toNat) else none := by
  have hchars : ∀ c' c'' : Char, c' ≤ c'' ↔ c'.toNat ≤ c''.toNat := fun _ _ => UInt32.le_iff_toNat_le
  unfold digitValue?
  simp only [hchars, Char.isDigit_iff_toNat, Char.reduceToNat]
  split
  · rw [Option.filter_some, if_pos (decide_eq_true (by omega))]
  · split
    · rw [Option.filter_some, if_neg (by simp only [decide_eq_true_eq]; omega)]
    · split
      · rw [Option.filter_some, if_neg (by simp only [decide_eq_true_eq]; omega)]
      · rfl

/-- Decimal digits are the usual ones. -/
theorem isDigit_ten (c : Char) : isDigit 10 c = c.isDigit := by
  rw [isDigit, digitValue?_ten]
  cases c.isDigit <;> rfl

/-- Decimal digits have the value that the library gives them. -/
theorem valueOfDigits?_ten {digits : List Char} (h : ∀ c ∈ digits, c.isDigit) (value : Nat) :
    valueOfDigits? 10 value digits = some (Nat.ofDigitChars 10 digits value) := by
  induction digits generalizing value with
  | nil => rfl
  | cons c digits ih =>
    rw [List.forall_mem_cons] at h
    rw [valueOfDigits?, digitValue?_ten, if_pos h.1, Nat.ofDigitChars_cons, Nat.mul_comm 10]
    exact ih h.2 _

end Text

end TriggerScript
