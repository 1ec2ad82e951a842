import TriggerScript.Proofs.Text.Bytes
import TriggerScript.Proofs.Wire.Trigger
import TriggerScript.Proofs.Wire.Value

/-!
# What readers of the wire format pass

A cursor stands behind a front of the text, and its position is the number of bytes of that front. Every reader keeps this:
it passes a spelling of what it reads, or finds a fault at a place of the text. So only spellings are read, and a fault names
what stands at its position: the character, the end of the text, the digits that are quoted, or a condition that has no
comparison.
-/

namespace TriggerScript

/-- The texts with an operator behind an operand at their front. -/
inductive Operator.Follows (op : Operator) : List Char → Prop
  | mk {operand : Operand} {front behind : List Char} (hoperand : operand.Spelled front) :
    Follows op (front ++ (op.spelling.toList ++ behind))

/-- The texts that begin with a condition that needs a comparison and has none. Behind a flag that is no source stands an
operand, and behind the operand either no operator at all, or an arithmetical one with its operand. -/
inductive Condition.Uncompared : List Char → Prop
  | bare {flag : Flag} {left : Operand} {text after : List Char} (hflag : flag.isSource = false)
    (hleft : left.Spelled text) (hoperator : ∀ op : Operator, ¬ op.Follows (text ++ after)) :
    Uncompared (flag.wire.toList ++ (text ++ after))
  | computed {flag : Flag} {left right : Operand} {op : Operator} {text factor after : List Char}
    (hflag : flag.isSource = false) (hleft : left.Spelled text) (hop : op.isComparison = false)
    (hright : right.Spelled factor) :
    Uncompared (flag.wire.toList ++ (text ++ (op.spelling.toList ++ (factor ++ after))))

namespace Text

/-- The texts that spell a signed number: digits, or digits behind a minus sign. -/
inductive SpellsSigned : Int64 → List Char → Prop
  | plain {n : Nat} {digits : List Char} (hdigits : Spells 10 digits n) (hn : n ≤ maxInt64) :
    SpellsSigned (.ofNat n) digits
  | negated {n : Nat} {digits : List Char} (hdigits : Spells 10 digits n) (hn : n ≤ maxInt64) :
    SpellsSigned (-.ofNat n) ('-' :: digits)

end Text

/-- The texts that spell a term. -/
inductive ValueTerm.Spelled : ValueTerm → List Char → Prop
  | constant {mark : Char} {value : Int64} {text : List Char} (hmark : mark = 'v' ∨ mark = 'V')
    (hvalue : Text.SpellsSigned value text) : Spelled (.constant value) (mark :: text)
  | scaled {operand : Operand} {multiplier : Int64} {text factor : List Char} (hoperand : operand.Spelled text)
    (hfactor : Text.SpellsSigned multiplier factor) : Spelled (.scaled operand multiplier) (text ++ '*' :: factor)
  | unscaled {operand : Operand} {text : List Char} (hoperand : operand.Spelled text) : Spelled (.scaled operand 1) text

/-- The texts that spell terms, at least one. -/
inductive Value.TermsSpelled : List ValueTerm → List Char → Prop
  | last {term : ValueTerm} {text : List Char} (hterm : term.Spelled text) : TermsSpelled [term] text
  | link {term : ValueTerm} {terms : List ValueTerm} {text rest : List Char} (hterm : term.Spelled text)
    (hterms : TermsSpelled terms rest) : TermsSpelled (term :: terms) (text ++ '_' :: rest)

/-- What stands in a text where a fault lies, given what may stand before a condition of the text. -/
def WireError.IsPlaced (text : List Char) (Opens : List Char → Prop) : WireError → Prop
  | .unexpectedCharacter c position => ∃ before after, text = before ++ c :: after ∧ position = Text.byteSize before
  | .unexpectedEnd position => position = Text.byteSize text
  | .invalidNumber digits position => ∃ before sign after, text = before ++ (sign ++ (digits.toList ++ after)) ∧
      (sign = [] ∨ sign = ['-']) ∧ position = Text.byteSize before
  | .missingComparison position => ∃ before rest, text = before ++ rest ∧ Opens before ∧ Condition.Uncompared rest ∧
      position = Text.byteSize before
  | .missingSection _ => False
  | .unknownSection _ => False

/-- A flag that is read from a letter is written as this letter. -/
theorem Flag.letter?_of_ofLetter? {c : Char} {flag : Flag} (h : ofLetter? c = some flag) : flag.letter? = some c := by
  simpa using List.find?_some h

namespace WireCursor

/-- A cursor stands behind a front of a text, at the number of its bytes. -/
structure Behind (text before : List Char) (cursor : WireCursor) : Prop where
  text_eq : text = before ++ cursor.rest
  position_eq : cursor.position = Text.byteSize before

/-- A cursor starts behind nothing. -/
theorem behind_ofString (text : String) : Behind text.toList [] (ofString text) :=
  ⟨rfl, rfl⟩

/-- What a reader does with a text behind a front of it: it finds a fault at a place of the text, or passes a spelling of
what it reads. -/
inductive Outcome {α : Type} (text : List Char) (Opens : List Char → Prop) (before : List Char)
    (Spelled : α → List Char → Prop) : Except WireError (α × WireCursor) → Prop
  | fault {error : WireError} (herror : error.IsPlaced text Opens) : Outcome text Opens before Spelled (.error error)
  | done {value : α} {next : WireCursor} {passed : List Char} (hnext : Behind text (before ++ passed) next)
    (hspelled : Spelled value passed) : Outcome text Opens before Spelled (.ok (value, next))

variable {α β : Type} {text before : List Char} {Opens : List Char → Prop} {cursor : WireCursor}

/-- There are no more characters behind a cursor than the text has bytes. -/
theorem Behind.length_rest_le (h : Behind text before cursor) : cursor.rest.length ≤ Text.byteSize text := by
  have hle := Text.length_le_byteSize cursor.rest
  rw [h.text_eq, Text.byteSize_append]
  omega

/-- What a cursor has passed stood before it. -/
theorem Behind.rest_eq {passed : List Char} {next : WireCursor} (h : Behind text before cursor)
    (hnext : Behind text (before ++ passed) next) : cursor.rest = passed ++ next.rest := by
  have htext := h.text_eq.symm.trans hnext.text_eq
  rw [List.append_assoc] at htext
  exact List.append_cancel_left htext

/-- Behind a front of a text there is one place. -/
theorem Behind.unique {cursor' : WireCursor} (h : Behind text before cursor) (h' : Behind text before cursor') :
    cursor = cursor' := by
  obtain ⟨rest, position⟩ := cursor
  obtain ⟨rest', position'⟩ := cursor'
  obtain ⟨htext, rfl⟩ := h
  obtain ⟨htext', rfl⟩ := h'
  obtain rfl : rest = rest' := List.append_cancel_left (htext.symm.trans htext')
  rfl

/-- Skipping a text leads behind it. -/
theorem Behind.skip (h : Behind text before cursor) {passed rest : List Char} (hrest : cursor.rest = passed ++ rest) :
    Behind text (before ++ passed) (cursor.skip passed.length) ∧ (cursor.skip passed.length).rest = rest := by
  obtain ⟨cs, position⟩ := cursor
  obtain ⟨rfl, rfl⟩ := h
  obtain rfl : cs = passed ++ rest := hrest
  rw [skip_append]
  exact ⟨⟨(List.append_assoc ..).symm, (Text.byteSize_append before passed).symm⟩, rfl⟩

/-- Skipping the next character passes it. -/
theorem Behind.skip_one (h : Behind text before cursor) {c : Char} {rest : List Char} (hrest : cursor.rest = c :: rest) :
    Behind text (before ++ [c]) (cursor.skip 1) ∧ (cursor.skip 1).rest = rest :=
  h.skip (show cursor.rest = [c] ++ rest from hrest)

/-- Skipping the next two characters passes both. -/
theorem Behind.skip_two (h : Behind text before cursor) {c d : Char} {rest : List Char}
    (hrest : cursor.rest = c :: d :: rest) :
    Behind text (before ++ [c, d]) (cursor.skip 2) ∧ (cursor.skip 2).rest = rest :=
  h.skip (show cursor.rest = [c, d] ++ rest from hrest)

/-- What is unexpected stands at the cursor, and is the end of the text if nothing stands there. -/
theorem Behind.isPlaced_unexpected (h : Behind text before cursor) : cursor.unexpected.IsPlaced text Opens := by
  obtain ⟨rest, position⟩ := cursor
  obtain ⟨rfl, rfl⟩ := h
  cases rest with
  | nil => exact congrArg Text.byteSize (List.append_nil before).symm
  | cons c rest => exact ⟨before, rest, rfl, rfl⟩

namespace Outcome

variable {Spelled Whole : α → List Char → Prop} {Spelled' : β → List Char → Prop}
  {result : Except WireError (α × WireCursor)}

theorem mono (h : Outcome text Opens before Spelled result)
    (hwhole : ∀ {value passed}, Spelled value passed → Whole value passed) : Outcome text Opens before Whole result := by
  cases h with
  | fault herror => exact .fault herror
  | done hnext hspelled => exact .done hnext (hwhole hspelled)

/-- What a reader passes behind a text that was passed before it. -/
theorem behind {passed : List Char} (h : Outcome text Opens (before ++ passed) Spelled result)
    (hwhole : ∀ {value passed'}, Spelled value passed' → Whole value (passed ++ passed')) :
    Outcome text Opens before Whole result := by
  cases h with
  | fault herror => exact .fault herror
  | done hnext hspelled => exact .done (List.append_assoc .. ▸ hnext) (hwhole hspelled)

/-- One reader and then another one, which goes on behind what the first one passed. -/
theorem bind {next : α × WireCursor → Except WireError (β × WireCursor)} (h : Outcome text Opens before Spelled result)
    (hnext : ∀ {value cursor passed}, Behind text (before ++ passed) cursor → Spelled value passed →
      Outcome text Opens (before ++ passed) (fun value' passed' => Spelled' value' (passed ++ passed'))
        (next (value, cursor))) :
    Outcome text Opens before Spelled' (result >>= next) := by
  cases h with
  | fault herror => exact .fault herror
  | done hcursor hspelled => exact (hnext hcursor hspelled).behind id

/-- What a reader passes comes with the equation of its result. -/
theorem attach (h : Outcome text Opens before Spelled result) :
    Outcome text Opens before
      (fun value passed => Spelled value passed ∧ ∃ next, Behind text (before ++ passed) next ∧ result = .ok (value, next))
      result := by
  cases h with
  | fault herror => exact .fault herror
  | done hnext hspelled => exact .done hnext ⟨hspelled, _, hnext, rfl⟩

theorem map {make : α → β} (h : Outcome text Opens before Spelled result)
    (hmake : ∀ {value passed}, Spelled value passed → Spelled' (make value) passed) :
    Outcome text Opens before Spelled' (result.map fun read => (make read.1, read.2)) := by
  cases h with
  | fault herror => exact .fault herror
  | done hnext hspelled => exact .done hnext (hmake hspelled)

/-- A reader that passes nothing. -/
theorem stay {value : α} (h : Behind text before cursor) (hspelled : Spelled value []) :
    Outcome text Opens before Spelled (.ok (value, cursor)) :=
  .done ((List.append_nil before).symm ▸ h) hspelled

end Outcome

/-! ## Numbers -/

/-- Digits are passed as far as they go. A fault is placed before the sign, if there is one. -/
theorem outcome_digits {base : Nat} {meaning : List Char → Option α} {start : Nat} {front sign : List Char}
    (h : Behind text (front ++ sign) cursor) (hsign : sign = [] ∨ sign = ['-']) (hstart : start = Text.byteSize front) :
    Outcome text Opens (front ++ sign) (fun value digits => meaning digits = some value)
      (cursor.digits base meaning start) := by
  obtain ⟨digits, rest, hrest, hdigits, hend⟩ := Text.exists_front (Text.isDigit base) cursor.rest
  simp only [WireCursor.digits]
  rw [hrest, Text.takeWhile_append_of_head hdigits hend]
  cases hmeaning : meaning digits with
  | some value => exact .done (h.skip hrest).1 hmeaning
  | none =>
    refine .fault ⟨front, sign, rest, ?_, hsign, hstart⟩
    rw [h.text_eq, hrest, String.toList_ofList, List.append_assoc]

/-- Digits without a sign. -/
theorem outcome_unsigned {base : Nat} {meaning : List Char → Option α} (h : Behind text before cursor) :
    Outcome text Opens before (fun value digits => meaning digits = some value)
      (cursor.digits base meaning cursor.position) := by
  have hdigits : Outcome text Opens (before ++ []) (fun value digits => meaning digits = some value)
      (cursor.digits base meaning cursor.position) :=
    outcome_digits ((List.append_nil before).symm ▸ h) (.inl rfl) h.position_eq
  rwa [List.append_nil] at hdigits

/-- A hexadecimal number passes the digits that spell it. -/
theorem outcome_hex (h : Behind text before cursor) :
    Outcome text Opens before (fun value digits => Text.Spells 16 digits value.toNat) cursor.hex :=
  (outcome_unsigned h).mono Text.spells_of_readUInt32?

/-- A decimal number passes the digits that spell it. -/
theorem outcome_decimal (h : Behind text before cursor) :
    Outcome text Opens before (fun value digits => Text.Spells 10 digits value.toNat) cursor.decimal :=
  (outcome_unsigned h).mono Text.spells_of_readUInt32?

/-- A signed number passes its sign and its digits. -/
theorem outcome_signed (h : Behind text before cursor) :
    Outcome text Opens before Text.SpellsSigned cursor.signed := by
  unfold signed
  split
  · rename_i rest hrest
    refine (outcome_digits (h.skip_one hrest).1 (.inr rfl) h.position_eq).behind ?_
    intro value digits hread
    obtain ⟨_, hplain, rfl⟩ := Option.map_eq_some_iff.mp hread
    obtain ⟨n, hn, rfl⟩ := Option.map_eq_some_iff.mp hplain
    obtain ⟨hdigits, hle⟩ := Text.spells_of_readNat? hn
    exact .negated hdigits hle
  · refine (outcome_unsigned h).mono ?_
    intro value digits hread
    obtain ⟨n, hn, rfl⟩ := Option.map_eq_some_iff.mp hread
    obtain ⟨hdigits, hle⟩ := Text.spells_of_readNat? hn
    exact .plain hdigits hle

/-! ## Operands -/

/-- Behind a mode and a base, the letter of a size and the digits of an address complete a read. -/
theorem outcome_sizeAndAddress {mode : ReadMode} (h : Behind text before cursor) :
    Outcome text Opens before
      (fun operand passed => ∀ x, x = 'x' ∨ x = 'X' → operand.Spelled (mode.letter?.toList ++ '0' :: x :: passed))
      (cursor.sizeAndAddress mode) := by
  have haddress : ∀ {size before cursor}, Behind text before cursor →
      Outcome text Opens before (fun operand digits => ∃ address : UInt32, Text.Spells 16 digits address.toNat ∧
        operand = .memory { mode, size, address }) (sizeAndAddress.address mode size cursor) := by
    intro size before cursor h
    exact (outcome_hex h).bind fun hnext hdigits => .stay hnext ⟨_, by rwa [List.append_nil], rfl⟩
  unfold sizeAndAddress
  split
  · exact .fault h.isPlaced_unexpected
  · rename_i c rest hrest
    split
    · refine (haddress h).mono ?_
      rintro _ digits ⟨address, hdigits, rfl⟩ x hx
      exact .wordRead hx hdigits
    · split
      · rename_i size hletter
        refine (haddress (h.skip_one hrest).1).behind ?_
        rintro _ digits ⟨address, hdigits, rfl⟩ x hx
        exact .read hx hletter hdigits
      · exact .fault h.isPlaced_unexpected

/-- A number that is an operand passes its spelling. -/
theorem outcome_number (h : Behind text before cursor) : Outcome text Opens before Operand.Spelled cursor.number := by
  unfold number
  split
  · exact .fault h.isPlaced_unexpected
  · rename_i c rest hrest
    split
    · rename_i hmark
      have hhex : Outcome text Opens (before ++ [c]) (fun operand digits => Operand.Spelled operand (c :: digits))
          ((cursor.skip 1).hex.map fun read => (Operand.number read.1, read.2)) :=
        (outcome_hex (h.skip_one hrest).1).map (.hex hmark)
      exact hhex.behind id
    · split
      · exact (outcome_decimal h).map .decimal
      · exact .fault h.isPlaced_unexpected

/-- The letter of a mode is passed before a read of that mode. -/
theorem Behind.readMode (h : Behind text before cursor) :
    Behind text (before ++ cursor.readMode.letter?.toList)
      (if cursor.readMode = .current then cursor else cursor.skip 1) := by
  unfold WireCursor.readMode
  split
  · exact (h.skip_one ‹_›).1
  · exact (h.skip_one ‹_›).1
  · exact (h.skip_one ‹_›).1
  · exact (List.append_nil before).symm ▸ h

/-- An operand passes its spelling. -/
theorem outcome_operand (h : Behind text before cursor) : Outcome text Opens before Operand.Spelled cursor.operand := by
  have hmode := h.readMode
  unfold operand
  dsimp only
  generalize cursor.readMode = mode at hmode ⊢
  generalize (if mode = .current then cursor else cursor.skip 1) = start at hmode ⊢
  have hread : ∀ {x rest}, x = 'x' ∨ x = 'X' → start.rest = '0' :: x :: rest →
      Outcome text Opens before Operand.Spelled ((start.skip 2).sizeAndAddress mode) := by
    intro x rest hx hrest
    refine ((outcome_sizeAndAddress (hmode.skip_two hrest).1).behind ?_).behind id
    exact fun hspelled => hspelled x hx
  split
  · exact hread (.inl rfl) ‹_›
  · exact hread (.inr rfl) ‹_›
  · split
    · rename_i hcurrent
      subst hcurrent
      exact (outcome_number hmode).behind id
    · exact .fault hmode.isPlaced_unexpected

/-! ## Conditions -/

/-- An operator that is found stands in front. -/
theorem exists_of_operator? {op : Operator} {text : List Char} (h : operator? text = some op) :
    ∃ rest, text = op.spelling.toList ++ rest := by
  unfold operator? at h
  split at h <;> cases h <;> exact ⟨_, rfl⟩

/-- The right side of a condition passes its operator and its operand, or nothing. -/
theorem outcome_rightSide (h : Behind text before cursor) :
    Outcome text Opens before Condition.RightSpelled cursor.rightSide := by
  unfold rightSide
  split
  · exact .stay h .none
  · rename_i op hop
    obtain ⟨rest, hrest⟩ := exists_of_operator? hop
    have hskip := (h.skip hrest).1
    rw [String.length_toList] at hskip
    refine Outcome.behind ((outcome_operand hskip).bind fun hnext hoperand => ?_) id
    exact .stay hnext (by rw [List.append_nil]; exact .some hoperand)

/-- A flag is passed as it is written. -/
theorem Behind.flag (h : Behind text before cursor) : Behind text (before ++ cursor.flag.1.wire.toList) cursor.flag.2 := by
  have hplain : Behind text (before ++ Flag.plain.wire.toList) cursor := (List.append_nil before).symm ▸ h
  unfold WireCursor.flag
  split
  · split
    · rename_i c _ hrest _ flag hletter
      have hwire : flag.wire.toList = [c, ':'] := by simp [Flag.wire, Flag.letter?_of_ofLetter? hletter]
      rw [hwire]
      exact (h.skip_two hrest).1
    · exact hplain
  · exact hplain

/-- A hit count passes its dots and its digits, or nothing. -/
theorem outcome_hitCount (h : Behind text before cursor) :
    Outcome text Opens before Condition.HitsSpelled cursor.hitCount := by
  unfold hitCount
  split
  · rename_i rest hrest
    refine Outcome.behind ((outcome_decimal (h.skip_one hrest).1).bind fun hnext hdigits => ?_) id
    dsimp only
    split
    · rename_i rest' hrest'
      exact .done (hnext.skip_one hrest').1 (.count hdigits)
    · exact .fault hnext.isPlaced_unexpected
  · exact .stay h .none

/-- Every operator is found where it stands. -/
theorem operator?_spelling_ne_none (op : Operator) (behind : List Char) :
    operator? (op.spelling.toList ++ behind) ≠ none := by
  unfold operator?
  split
  case h_9 hno =>
    cases op with
    | compare op => cases op <;> simp_all [Operator.spelling]
    | multiply | divide => simp_all [Operator.spelling]
  all_goals exact Option.some_ne_none _

/-- An operand is read up to the operator that stands behind it. -/
theorem operand_of_follows {operand : Operand} {front : List Char} (h : operand.Spelled front) (op : Operator)
    (behind : List Char) (position : Nat) :
    WireCursor.operand ⟨front ++ (op.spelling.toList ++ behind), position⟩ =
      .ok (operand, ⟨op.spelling.toList ++ behind, position + Text.byteSize front⟩) :=
  operand_of_spelled h (closes_spelling op behind) position

/-- Behind an operand that is read without an operator stands none. -/
theorem not_follows_of_operator? {start next : WireCursor} {operand : Operand}
    (hoperand : start.operand = .ok (operand, next)) (hnone : operator? next.rest = none) (op : Operator) :
    ¬ op.Follows start.rest := by
  obtain ⟨rest, position⟩ := start
  rintro ⟨hspelled⟩
  have hread := (operand_of_follows hspelled op _ position).symm.trans hoperand
  obtain ⟨_, rfl⟩ := Prod.mk.inj (Except.ok.inj hread)
  exact absurd hnone (operator?_spelling_ne_none op _)

/-- A condition that is read up to its right side and has no comparison there begins a text that lacks one. -/
theorem uncompared_of_rightSide {flag : Flag} {left : Operand} {right? : Option (Operator × Operand)}
    {start next after : WireCursor} {text right : List Char} (hflag : flag.isSource = false)
    (hoperand : start.operand = .ok (left, next)) (hleft : left.Spelled text) (hrest : start.rest = text ++ next.rest)
    (hside : next.rightSide = .ok (right?, after)) (hright : Condition.RightSpelled right? right)
    (hnext : next.rest = right ++ after.rest) (hcomparison : right?.any (·.1.isComparison) = false) :
    Condition.Uncompared (flag.wire.toList ++ start.rest) := by
  cases hright with
  | none =>
    have hnone : operator? next.rest = none := by
      unfold rightSide at hside
      split at hside
      · assumption
      · obtain ⟨_, _, hvalue⟩ := bind_eq_ok.mp hside
        cases (Prod.mk.inj (Except.ok.inj hvalue)).1
    have hoperator := not_follows_of_operator? hoperand hnone
    rw [hrest] at hoperator ⊢
    exact .bare hflag hleft hoperator
  | some hspelled =>
    rw [hrest, hnext, List.append_assoc]
    exact .computed hflag hleft hcomparison hspelled

/-- A flag with an operand behind it is found in one way. -/
theorem flag_unique {flag flag' : Flag} {left left' : Operand} {text text' after after' : List Char}
    (hleft : left.Spelled text) (hleft' : left'.Spelled text')
    (h : flag.wire.toList ++ (text ++ after) = flag'.wire.toList ++ (text' ++ after')) :
    flag = flag' ∧ text ++ after = text' ++ after' := by
  have hflag := flag_of_spelled flag hleft after 0
  rw [h, flag_of_spelled flag' hleft' after' 0] at hflag
  obtain ⟨rfl, hcursor⟩ := Prod.mk.inj hflag
  exact ⟨rfl, (WireCursor.mk.inj hcursor).1.symm⟩

/-- Behind an operand with an operator stands no operator of another kind. -/
theorem isComparison_of_follows {op op' : Operator} {left : Operand} {text behind : List Char} (hleft : left.Spelled text)
    (h : op'.Follows (text ++ (op.spelling.toList ++ behind))) : op'.isComparison = op.isComparison := by
  have hfirst : ∀ (op : Operator) rest,
      op.isComparison = (op.spelling.toList ++ rest).head?.all fun c => c ≠ '*' && c ≠ '/' := by
    intro op rest
    cases op with
    | compare op => cases op <;> rfl
    | multiply | divide => rfl
  generalize htext : text ++ (op.spelling.toList ++ behind) = whole at h
  obtain ⟨hspelled⟩ := h
  have hread := operand_of_follows hleft op behind 0
  rw [htext, operand_of_follows hspelled] at hread
  obtain ⟨_, hcursor⟩ := Prod.mk.inj (Except.ok.inj hread)
  rw [hfirst op' _, hfirst op behind, (WireCursor.mk.inj hcursor).1]

/-- A condition without the comparison it needs is a fault at its beginning. -/
theorem outcome_condition (h : Behind text before cursor) (hopens : Opens before) :
    Outcome text Opens before Condition.Spelled cursor.condition := by
  have hflag := h.flag
  unfold condition
  generalize cursor.flag = read at hflag ⊢
  obtain ⟨flag, start⟩ := read
  refine Outcome.behind ((outcome_operand hflag).attach.bind ?_) id
  rintro left cursorLeft textLeft hcursorLeft ⟨hleft, _, hnext, hoperand⟩
  obtain rfl := hnext.unique hcursorLeft
  refine (outcome_rightSide hcursorLeft).attach.bind ?_
  rintro right? cursorRight textRight hcursorRight ⟨hright, _, hafter, hside⟩
  obtain rfl := hafter.unique hcursorRight
  dsimp only
  split
  · rename_i hcheck
    rw [Bool.and_eq_true, Bool.not_eq_true', Bool.not_eq_true'] at hcheck
    have huncompared := uncompared_of_rightSide hcheck.1 hoperand hleft (hflag.rest_eq hcursorLeft) hside hright
      (hcursorLeft.rest_eq hcursorRight) hcheck.2
    refine .fault ⟨before, _, ?_, hopens, huncompared, h.position_eq⟩
    rw [hflag.text_eq, List.append_assoc]
  · rename_i hcheck
    refine (outcome_hitCount hcursorRight).bind ?_
    intro hits cursorHits textHits hcursorHits hhits
    refine .stay hcursorHits ?_
    rw [List.append_nil]
    refine .mk hleft hright hhits ?_
    rw [← Bool.not_or, Bool.not_eq_true, Bool.not_eq_false'] at hcheck
    exact hcheck

/-- A reader of a whole text finds a fault at a place of the text, or reads a spelling to its end. -/
theorem Outcome.whole {Spelled : α → List Char → Prop} {result : Except WireError (α × WireCursor)}
    (h : Outcome text Opens [] Spelled result) (make : α → β) :
    (∃ error, error.IsPlaced text Opens ∧
        (result >>= fun read => read.2.expectEnd >>= fun _ => pure (make read.1)) = .error error) ∨
      ∃ value, Spelled value text ∧
        (result >>= fun read => read.2.expectEnd >>= fun _ => pure (make read.1)) = .ok (make value) := by
  cases h with
  | fault herror => exact .inl ⟨_, herror, rfl⟩
  | @done value next passed hnext hspelled =>
    change (∃ error, error.IsPlaced text Opens ∧ (next.expectEnd >>= fun _ => pure (make value)) = .error error) ∨
      ∃ value', Spelled value' text ∧ (next.expectEnd >>= fun _ => pure (make value)) = .ok (make value')
    rw [expectEnd]
    cases hrest : next.rest with
    | nil =>
      have htext := hnext.text_eq
      rw [hrest, List.append_nil, List.nil_append] at htext
      exact .inr ⟨value, htext ▸ hspelled, rfl⟩
    | cons c rest => exact .inl ⟨_, hnext.isPlaced_unexpected, rfl⟩

/-- An error in reading a whole text is placed in it. -/
theorem Outcome.isPlaced_of_error {Spelled : α → List Char → Prop} {result : Except WireError (α × WireCursor)}
    {error : WireError} (h : Outcome text Opens [] Spelled result) (make : α → β)
    (herror : (result >>= fun read => read.2.expectEnd >>= fun _ => pure (make read.1)) = .error error) :
    error.IsPlaced text Opens := by
  rcases h.whole make with ⟨error', hplaced, heq⟩ | ⟨value, _, heq⟩
  · rw [herror] at heq
    exact Except.error.inj heq ▸ hplaced
  · rw [herror] at heq
    cases heq

/-- A text that is read whole spells what is read. -/
theorem Outcome.spelled_of_ok {Spelled : α → List Char → Prop} {result : Except WireError (α × WireCursor)} {b : β}
    (h : Outcome text Opens [] Spelled result) (make : α → β)
    (hok : (result >>= fun read => read.2.expectEnd >>= fun _ => pure (make read.1)) = .ok b) :
    ∃ value, Spelled value text ∧ b = make value := by
  rcases h.whole make with ⟨error, _, heq⟩ | ⟨value, hspelled, heq⟩
  · rw [hok] at heq
    cases heq
  · exact ⟨value, hspelled, Except.ok.inj (hok.symm.trans heq)⟩

end WireCursor

namespace Condition

/-- A comparison stands behind the left operand of every condition that is no source. -/
theorem Spelled.follows {condition : Condition} {flag : Flag} {left : Operand} {line behind text after : List Char}
    (h : condition.Spelled line) (hflag : flag.isSource = false) (hleft : left.Spelled text)
    (heq : line ++ behind = flag.wire.toList ++ (text ++ after)) :
    ∃ op : Operator, op.isComparison = true ∧ op.Follows (text ++ after) := by
  obtain ⟨hspelled, hright, _, hcondition⟩ := h
  rw [List.append_assoc, List.append_assoc, List.append_assoc] at heq
  obtain ⟨rfl, hrest⟩ := WireCursor.flag_unique hspelled hleft heq
  rw [isWellFormed, hflag, Bool.false_or] at hcondition
  rw [← hrest]
  cases hside : condition.right? with
  | none =>
    rw [hside] at hcondition
    cases hcondition
  | some side =>
    rw [hside] at hcondition hright
    cases hright with
    | some hoperand =>
      refine ⟨_, hcondition, ?_⟩
      rw [List.append_assoc]
      exact ⟨hspelled⟩

/-- A text that begins with a condition without its comparison begins with no spelling of a condition. -/
theorem Uncompared.not_spelled {condition : Condition} {line behind : List Char} (h : Uncompared (line ++ behind)) :
    ¬ condition.Spelled line := by
  intro hspelled
  generalize heq : line ++ behind = text at h
  cases h with
  | bare hflag hleft hoperator =>
    obtain ⟨op, _, hfollows⟩ := hspelled.follows hflag hleft heq
    exact hoperator op hfollows
  | computed hflag hleft hop hright =>
    obtain ⟨op, hcomparison, hfollows⟩ := hspelled.follows hflag hleft heq
    rw [WireCursor.isComparison_of_follows hleft hfollows, hop] at hcomparison
    cases hcomparison

end Condition

/-- No comparison is missing where a condition is spelled. -/
theorem WireError.not_isPlaced_of_spelled {condition : Condition} {before line behind : List Char}
    (h : condition.Spelled line) (Opens : List Char → Prop) :
    ¬ (missingComparison (Text.byteSize before)).IsPlaced (before ++ (line ++ behind)) Opens := by
  rintro ⟨before', rest, htext, _, huncompared, hposition⟩
  have hrest := Text.dropBytes?_append before (line ++ behind)
  rw [htext, hposition, Text.dropBytes?_append] at hrest
  obtain rfl := Option.some.inj hrest
  exact huncompared.not_spelled h

/-- A fault of a condition lies in the text; a comparison is missing only at the beginning. -/
theorem Condition.isPlaced_of_ofWire {text : String} {error : WireError} (h : ofWire text = .error error) :
    error.IsPlaced text.toList (· = []) := by
  have houtcome : WireCursor.Outcome text.toList (· = []) [] Spelled (WireCursor.ofString text).condition :=
    WireCursor.outcome_condition (WireCursor.behind_ofString text) rfl
  exact houtcome.isPlaced_of_error id h

namespace Trigger

/-- The texts that may stand before a condition of a trigger: a separator at the very beginning or none, and then whole
conditions, each with an underscore or a separator behind it. -/
inductive Opens : List Char → Prop
  | first : Opens []
  | separator {c : Char} (hc : isSeparator c) : Opens [c]
  | next {before line : List Char} {condition : Condition} {c : Char} (hbefore : Opens before)
    (hcondition : condition.Spelled line) (hc : c = '_' ∨ isSeparator c) : Opens (before ++ (line ++ [c]))

variable {text before : List Char} {cursor : WireCursor}

open WireCursor

/-- The texts that go on with an open group, given its conditions in reverse, and with further groups. -/
def GroupsContinued (current : List Condition) (groups : List (List Condition)) (text : List Char) : Prop :=
  ∃ group others, groups = (current.reverse ++ group) :: others ∧ GroupsSpelled (group :: others) text

/-- Groups are read condition by condition, each at a place where one may stand. -/
theorem outcome_readGroups (bound : Nat) (current : List Condition) (h : Behind text before cursor) (hopens : Opens before) :
    Outcome text Opens before (GroupsContinued current) (readGroups bound current cursor) := by
  induction bound generalizing current before cursor with
  | zero => exact .fault h.isPlaced_unexpected
  | succ bound ih =>
    rw [readGroups]
    refine (outcome_condition h hopens).bind ?_
    intro condition next line hnext hcondition
    have hgo : ∀ {c rest}, next.rest = c :: rest → c = '_' ∨ isSeparator c → ∀ current,
        Outcome text Opens (before ++ line ++ [c]) (GroupsContinued current) (readGroups bound current (next.skip 1)) := by
      intro c rest hrest hc current
      refine ih current (hnext.skip_one hrest).1 ?_
      rw [List.append_assoc]
      exact hopens.next hcondition hc
    have hlast : Outcome text Opens (before ++ line) (fun groups passed => GroupsContinued current groups (line ++ passed))
        (.ok ([(condition :: current).reverse], next)) :=
      .stay hnext ⟨[condition], [], by rw [List.reverse_cons], by rw [List.append_nil]; exact .last hcondition⟩
    dsimp only
    split
    · rename_i c rest hrest
      split
      · rename_i hc
        refine (hgo hrest (.inl hc) _).behind ?_
        rintro _ passed ⟨group, others, rfl, hgroups⟩
        refine ⟨condition :: group, others, by simp, ?_⟩
        rw [hc]
        exact .link hcondition hgroups
      · split
        · rename_i hc
          refine Outcome.behind ((hgo hrest (.inr hc) []).bind ?_) id
          rintro _ after passed hafter ⟨group, others, rfl, hgroups⟩
          refine .stay hafter ⟨[condition], group :: others, by simp, ?_⟩
          rw [List.append_nil]
          exact .separate hcondition hc hgroups
        · exact hlast
    · exact hlast

/-- The groups of a trigger pass their spellings and the separators between them. -/
theorem outcome_readAllGroups (h : Behind text before cursor) (hopens : Opens before) :
    Outcome text Opens before GroupsSpelled (readAllGroups cursor) := by
  refine (outcome_readGroups _ [] h hopens).mono ?_
  rintro _ passed ⟨group, others, rfl, hgroups⟩
  exact hgroups

/-- A trigger passes its spelling. -/
theorem outcome_read (h : Behind text [] cursor) : Outcome text Opens [] Spelled (read cursor) := by
  unfold read
  split
  · exact .stay h .empty
  · rename_i c rest hrest
    split
    · rename_i hc
      refine Outcome.behind ((outcome_readAllGroups (h.skip_one hrest).1 (.separator hc)).bind ?_) id
      intro groups next passed hnext hgroups
      exact .stay hnext (by rw [List.append_nil]; exact .alternatives hc hgroups)
    · refine (outcome_readAllGroups h .first).bind ?_
      intro groups next passed hnext hgroups
      refine .stay hnext ?_
      rw [List.append_nil]
      cases groups with
      | nil => cases hgroups
      | cons core groups => exact .core hgroups

/-- Only spellings of a trigger are read as the trigger. -/
theorem spelled_of_ofWire {text : String} {trigger : Trigger} (h : ofWire text = .ok trigger) :
    trigger.Spelled text.toList := by
  obtain ⟨_, hspelled, rfl⟩ := (outcome_read (behind_ofString text)).spelled_of_ok id h
  exact hspelled

/-- A fault of a trigger lies in the text; a comparison is missing only where a condition begins. -/
theorem isPlaced_of_ofWire {text : String} {error : WireError} (h : ofWire text = .error error) :
    error.IsPlaced text.toList Opens :=
  (outcome_read (behind_ofString text)).isPlaced_of_error id h

end Trigger

namespace Value

variable {text before : List Char} {Opens : List Char → Prop} {cursor : WireCursor}

open WireCursor

/-- A term of a value passes its spelling. -/
theorem outcome_readTerm (h : Behind text before cursor) :
    Outcome text Opens before ValueTerm.Spelled (readTerm cursor) := by
  have hsigned : ∀ {cursor before c rest}, Behind text before cursor → cursor.rest = c :: rest →
      Outcome text Opens before (fun value passed => ∃ digits, passed = c :: digits ∧ Text.SpellsSigned value digits)
        (cursor.skip 1).signed := by
    intro cursor before c rest h hrest
    exact (outcome_signed (h.skip_one hrest).1).behind fun hvalue => ⟨_, rfl, hvalue⟩
  unfold readTerm
  split
  · refine (hsigned h ‹_›).map ?_
    rintro value _ ⟨digits, rfl, hvalue⟩
    exact .constant (.inl rfl) hvalue
  · refine (hsigned h ‹_›).map ?_
    rintro value _ ⟨digits, rfl, hvalue⟩
    exact .constant (.inr rfl) hvalue
  · refine (outcome_operand h).bind ?_
    intro operand next passed hnext hoperand
    dsimp only
    split
    · refine (hsigned hnext ‹_›).map ?_
      rintro multiplier _ ⟨digits, rfl, hmultiplier⟩
      exact .scaled hoperand hmultiplier
    · exact .stay hnext (by rw [List.append_nil]; exact .unscaled hoperand)

/-- The terms of a value pass their spellings and the underscores between them. -/
theorem outcome_readTerms (bound : Nat) (h : Behind text before cursor) :
    Outcome text Opens before TermsSpelled (readTerms bound cursor) := by
  induction bound generalizing before cursor with
  | zero => exact .fault h.isPlaced_unexpected
  | succ bound ih =>
    rw [readTerms]
    refine (outcome_readTerm h).bind ?_
    intro term next passed hnext hterm
    dsimp only
    split
    · rename_i rest hrest
      refine Outcome.behind ((ih (hnext.skip_one hrest).1).bind ?_) id
      intro terms after passed' hafter hterms
      exact .stay hafter (by rw [List.append_nil]; exact .link hterm hterms)
    · exact .stay hnext (by rw [List.append_nil]; exact .last hterm)

/-- Only spellings of its terms are read as a value. -/
theorem termsSpelled_of_ofWire {text : String} {value : Value} (h : ofWire text = .ok value) :
    TermsSpelled value.terms text.toList := by
  have houtcome : Outcome text.toList (fun _ => False) [] TermsSpelled
      (readTerms ((ofString text).rest.length + 1) (ofString text)) := outcome_readTerms _ (behind_ofString text)
  obtain ⟨terms, hspelled, rfl⟩ := houtcome.spelled_of_ok Value.mk h
  exact hspelled

/-- A fault of a value lies in the text, and is never a missing comparison. -/
theorem isPlaced_of_ofWire {text : String} {error : WireError} (h : ofWire text = .error error) :
    error.IsPlaced text.toList (fun _ => False) :=
  (outcome_readTerms _ (behind_ofString text)).isPlaced_of_error Value.mk h

end Value

end TriggerScript
