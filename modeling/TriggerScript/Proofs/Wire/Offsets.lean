import TriggerScript.Proofs.Wire.Reading

/-!
# Reading the wire format by byte offsets

A second reader of the wire format keeps nothing but a byte offset into the whole text. It moves the offset by fixed numbers
of bytes behind what it has seen, and cuts the text at the offset for every look. It traps where a cut would lie outside the
text or inside a character, where the offset would pass the end of the text, where a number has no negation, and where a
loop goes on longer than the text. On every text it reads what the cursor reads, so it never traps.
-/

namespace TriggerScript

/-- A reader that keeps a byte offset: nothing if it traps, else a fault or a thing and the offset behind it. -/
structure OffsetReader (α : Type) where
  run : Nat → Option (Except WireError (α × Nat))

namespace OffsetReader

instance : Monad OffsetReader where
  pure a := ⟨fun offset => some (.ok (a, offset))⟩
  bind x f := ⟨fun offset =>
    match x.run offset with
    | some (.ok (a, next)) => (f a).run next
    | some (.error error) => some (.error error)
    | none => none⟩

variable {α : Type}

/-- Stops without a result: the text was cut, passed or computed with where it must not be. -/
def trap : OffsetReader α := ⟨fun _ => none⟩

/-- Ends with an error of the format. -/
def fault (error : WireError) : OffsetReader α := ⟨fun _ => some (.error error)⟩

/-- The bytes passed so far. -/
def offset : OffsetReader Nat := ⟨fun offset => some (.ok (offset, offset))⟩

variable (text : List Char)

/-- The text behind the offset. -/
def rest : OffsetReader (List Char) :=
  ⟨fun offset => (Text.dropBytes? offset text).map fun rest => .ok (rest, offset)⟩

/-- The text between two offsets. -/
def slice (start stop : Nat) : OffsetReader (List Char) :=
  ⟨fun offset => (Text.slice? start stop text).map fun slice => .ok (slice, offset)⟩

/-- Moves the offset by a number of bytes, but not past the end of the text. -/
def move (bytes : Nat) : OffsetReader Unit :=
  ⟨fun offset => if offset + bytes ≤ Text.byteSize text then some (.ok ((), offset + bytes)) else none⟩

/-- The next character. -/
def peek : OffsetReader (Option Char) := do
  return (← rest text).head?

/-- The character behind the next one. -/
def peekSecond : OffsetReader (Option Char) := do
  return (← rest text)[1]?

/-- Passes a character. -/
def advance : OffsetReader Unit := do
  match ← peek text with
  | some c => move text c.utf8Size
  | none => return

/-- Passes a character if it is the next one. -/
def accept (expected : Char) : OffsetReader Bool := do
  if (← peek text) = some expected then
    move text expected.utf8Size
    return true
  else
    return false

/-- The fault of a text that goes on, or ends, where it may not. -/
def unexpected : OffsetReader α := do
  let offset ← offset
  match ← peek text with
  | some c => fault (.unexpectedCharacter c offset)
  | none => fault (.unexpectedEnd offset)

/-- Refuses a text that goes on. -/
def expectEnd : OffsetReader Unit := do
  if (← peek text).isSome then unexpected text

/-! ## Numbers -/

/-- Passes characters of a class one by one, at most a number of them. -/
def passWhile (p : Char → Bool) : Nat → OffsetReader Unit
  | 0 => trap
  | bound + 1 => do
    match ← peek text with
    | some c =>
      if p c then
        move text c.utf8Size
        passWhile p bound
    | none => return

/-- Passes characters of a class and cuts them out of the text. -/
def takeWhile (p : Char → Bool) : OffsetReader (List Char) := do
  let start ← offset
  passWhile text p (Text.byteSize text + 1)
  slice text start (← offset)

/-- Reads digits of a base with the given meaning; a fault is placed where the number begins. -/
def digits (base : Nat) (meaning : List Char → Option α) (start : Nat) : OffsetReader α := do
  let found ← takeWhile text (Text.isDigit base)
  match meaning found with
  | some value => return value
  | none => fault (.invalidNumber (String.ofList found) start)

/-- Reads a hexadecimal number. -/
def hex : OffsetReader UInt32 := do
  digits text 16 (Text.readUInt32? 16) (← offset)

/-- Reads a decimal number. -/
def decimal : OffsetReader UInt32 := do
  digits text 10 (Text.readUInt32? 10) (← offset)

/-- The least number has no negation. -/
def negate (value : Int64) : OffsetReader Int64 :=
  if value = Int64.minValue then trap else pure (-value)

/-- Reads a decimal number that may have a minus sign. -/
def signed : OffsetReader Int64 := do
  let start ← offset
  let negative ← accept text '-'
  let value ← digits text 10 (Text.readInt64? 10) start
  if negative then negate value else return value

/-! ## Conditions -/

/-- The mode that the letter before a read gives it. -/
def modeOf : Option Char → Option Char → ReadMode
  | some 'd', some '0' => .previous
  | some 'p', some '0' => .prior
  | some 'b', some '0' => .decimal
  | _, _ => .current

/-- Passes the letter of a mode. -/
def passMode (mode : ReadMode) : OffsetReader Unit :=
  if mode = .current then pure () else advance text

/-- Reads the size of a memory read; a digit belongs to the address. -/
def size : OffsetReader MemorySize := do
  match ← peek text with
  | some c =>
    if Text.isDigit 16 c then
      return .word
    else
      match MemorySize.ofLetter? c with
      | some size =>
        advance text
        return size
      | none => unexpected text
  | none => unexpected text

/-- Reads a number, hexadecimal after an `h`. -/
def number : OffsetReader Operand := do
  match ← peek text with
  | some c =>
    if c = 'h' ∨ c = 'H' then
      advance text
      return .number (← hex text)
    else if Text.isDigit 10 c then
      return .number (← decimal text)
    else
      unexpected text
  | none => unexpected text

/-- Reads an operand. -/
def operand : OffsetReader Operand := do
  let mode := modeOf (← peek text) (← peekSecond text)
  passMode text mode
  let first ← peek text
  let second ← peekSecond text
  if first = some '0' ∧ (second = some 'x' ∨ second = some 'X') then
    move text 2
    let size ← size text
    let address ← hex text
    return .memory { mode, size, address }
  else if mode = .current then
    number text
  else
    unexpected text

/-- The operator that two characters begin with. -/
def operatorOf : Option Char → Option Char → Option Operator
  | some '=', _ => some (.compare .equal)
  | some '!', some '=' => some (.compare .notEqual)
  | some '<', some '=' => some (.compare .lessEqual)
  | some '<', _ => some (.compare .less)
  | some '>', some '=' => some (.compare .greaterEqual)
  | some '>', _ => some (.compare .greater)
  | some '*', _ => some .multiply
  | some '/', _ => some .divide
  | _, _ => none

/-- Reads an operator and the operand after it, if there is an operator. -/
def rightSide : OffsetReader (Option (Operator × Operand)) := do
  match operatorOf (← peek text) (← peekSecond text) with
  | some op =>
    move text op.spelling.utf8ByteSize
    return some (op, ← operand text)
  | none => return none

/-- Reads a flag, if a flag letter and a colon stand here. -/
def flag : OffsetReader Flag := do
  if (← peekSecond text) = some ':' then
    match (← peek text).bind Flag.ofLetter? with
    | some flag =>
      move text 2
      return flag
    | none => return .plain
  else
    return .plain

/-- Reads a hit count between points, if there is one. -/
def hitCount : OffsetReader UInt32 := do
  if ← accept text '.' then
    let count ← decimal text
    if ← accept text '.' then return count else unexpected text
  else
    return 0

/-- Reads a condition. Only a source may do without a comparison. -/
def condition : OffsetReader Condition := do
  let start ← offset
  let flag ← flag text
  let left ← operand text
  let right? ← rightSide text
  if !flag.isSource && !right?.any (·.1.isComparison) then
    fault (.missingComparison start)
  else
    let hits ← hitCount text
    return { flag, left, right?, hits }

/-! ## Triggers and values -/

/-- Reads conditions and the groups they fall into, given the conditions of the open group in reverse. -/
def groups : Nat → List Condition → OffsetReader (List (List Condition))
  | 0, _ => trap
  | bound + 1, current => do
    let condition ← condition text
    match ← peek text with
    | some c =>
      if c = '_' then
        advance text
        groups bound (condition :: current)
      else if Trigger.isSeparator c then
        advance text
        return (condition :: current).reverse :: (← groups bound [])
      else
        return [(condition :: current).reverse]
    | none => return [(condition :: current).reverse]

/-- Reads a trigger: nothing at all, alternatives behind a leading separator, or a core and alternatives. -/
def trigger : OffsetReader Trigger := do
  match ← peek text with
  | some c =>
    if Trigger.isSeparator c then
      advance text
      return { alternatives := ← groups text (Text.byteSize text + 1) [] }
    else
      let groups ← groups text (Text.byteSize text + 1) []
      return { core := groups.headD [], alternatives := groups.tail }
  | none => return {}

/-- Reads a term. -/
def term : OffsetReader ValueTerm := do
  let first ← peek text
  if first = some 'v' ∨ first = some 'V' then
    advance text
    return .constant (← signed text)
  else
    let operand ← operand text
    if ← accept text '*' then
      return .scaled operand (← signed text)
    else
      return .scaled operand 1

/-- Reads terms between underscores. -/
def terms : Nat → OffsetReader (List ValueTerm)
  | 0 => trap
  | bound + 1 => do
    let term ← term text
    if ← accept text '_' then
      return term :: (← terms bound)
    else
      return [term]

/-- Reads a value. -/
def value : OffsetReader Value := do
  return { terms := ← terms text (Text.byteSize text + 1) }

/-- Reads up to the end of the text. -/
def toEnd (reader : OffsetReader α) : OffsetReader α := do
  let value ← reader
  expectEnd text
  return value

/-- Reads a whole text. -/
def readAll (reader : OffsetReader α) : Option (Except WireError α) :=
  ((toEnd text reader).run 0).map (·.map Prod.fst)

/-! ## Agreement with the cursor -/

/-- A result with the offset of its cursor. -/
def ofCursor (result : Except WireError (α × WireCursor)) : Option (Except WireError (α × Nat)) :=
  some (result.map fun read => (read.1, read.2.position))

open WireCursor

section

variable {β : Type} {x : OffsetReader α} {f : α → OffsetReader β} {start next : Nat} {a : α} {error : WireError}

/-- A reader that succeeds passes its result and its offset on. -/
theorem bind_of_ok (h : x.run start = some (.ok (a, next))) : (x >>= f).run start = (f a).run next := by
  simp only [bind, h]

/-- A fault of the first reader is the fault of the sequence. -/
theorem bind_of_error (h : x.run start = some (.error error)) : (x >>= f).run start = some (.error error) := by
  simp only [bind, h]

theorem bind_pure_eq : (x >>= pure).run start = x.run start := by
  cases hx : x.run start with
  | none => simp only [bind, hx]
  | some result =>
    cases result with
    | error error => exact bind_of_error hx
    | ok read => exact bind_of_ok hx

/-- What is made of the thing that is read. -/
theorem map_eq_ofCursor {make : α → β} {result : Except WireError (α × WireCursor)} (hx : x.run start = ofCursor result) :
    (x >>= fun a => pure (make a)).run start = ofCursor (result >>= fun read => pure (make read.1, read.2)) := by
  cases result with
  | error error => exact bind_of_error hx
  | ok read => exact bind_of_ok hx

/-- Two readers that agree with those of the cursor, one after the other. -/
theorem bind_eq_ofCursor {text before : List Char} {Spelled : α → List Char → Prop}
    {result : Except WireError (α × WireCursor)} {follow : α × WireCursor → Except WireError (β × WireCursor)}
    (hx : x.run start = ofCursor result) (hresult : Outcome text (fun _ => True) before Spelled result)
    (hf : ∀ {value cursor passed}, Behind text (before ++ passed) cursor → Spelled value passed →
      (f value).run cursor.position = ofCursor (follow (value, cursor))) :
    (x >>= f).run start = ofCursor (result >>= follow) := by
  cases hresult with
  | fault _ => exact bind_of_error hx
  | done hnext hspelled => exact (bind_of_ok hx).trans (hf hnext hspelled)

end

variable {text : List Char} {before : List Char} {cursor : WireCursor} {c : Char} {cs : List Char}

/-- At the offset of the cursor, the text is cut where the cursor stands. -/
theorem rest_eq (h : Behind text before cursor) :
    (rest text).run cursor.position = some (.ok (cursor.rest, cursor.position)) := by
  obtain ⟨rfl, hposition⟩ := h
  simp only [rest, hposition, Text.dropBytes?_append, Option.map_some]

/-- Both readers see the same next character. -/
theorem peek_eq (h : Behind text before cursor) :
    (peek text).run cursor.position = some (.ok (cursor.rest.head?, cursor.position)) :=
  bind_of_ok (rest_eq h)

example : (peek "é:".toList).run 2 = some (.ok (some ':', 2)) ∧ (peek "é:".toList).run 1 = none := ⟨rfl, rfl⟩

/-- Both readers see the same character behind the next one. -/
theorem peekSecond_eq (h : Behind text before cursor) :
    (peekSecond text).run cursor.position = some (.ok (cursor.rest[1]?, cursor.position)) :=
  bind_of_ok (rest_eq h)

/-- The offset moves over what stands behind it. -/
theorem move_eq (h : Behind text before cursor) {passed : List Char} (hrest : cursor.rest = passed ++ cs) :
    (move text (Text.byteSize passed)).run cursor.position = some (.ok ((), (cursor.skip passed.length).position)) := by
  have hskip := (h.skip hrest).1.position_eq
  rw [Text.byteSize_append, ← h.position_eq] at hskip
  have hle : cursor.position + Text.byteSize passed ≤ Text.byteSize text := by
    rw [h.text_eq, hrest, h.position_eq]
    simp only [Text.byteSize_append]
    omega
  simp only [move, if_pos hle, hskip]

/-- The bytes of the next character lead to the cursor behind it. -/
theorem move_char_eq (h : Behind text before cursor) (hrest : cursor.rest = c :: cs) :
    (move text c.utf8Size).run cursor.position = some (.ok ((), (cursor.skip 1).position)) := by
  have hmove := move_eq h (show cursor.rest = [c] ++ cs from hrest)
  rwa [Text.byteSize_cons, Text.byteSize_nil, Nat.add_zero] at hmove

/-- Two bytes lead behind two characters of one byte each. -/
theorem move_two_eq {d : Char} (h : Behind text before cursor) (hc : c.utf8Size = 1) (hd : d.utf8Size = 1)
    (hrest : cursor.rest = c :: d :: cs) :
    (move text 2).run cursor.position = some (.ok ((), (cursor.skip 2).position)) := by
  have hmove := move_eq h (show cursor.rest = [c, d] ++ cs from hrest)
  rwa [Text.byteSize_cons, Text.byteSize_cons, Text.byteSize_nil, hc, hd] at hmove

/-- Passing the next character moves the cursor by one. -/
theorem advance_eq (h : Behind text before cursor) (hrest : cursor.rest = c :: cs) :
    (advance text).run cursor.position = some (.ok ((), (cursor.skip 1).position)) := by
  rw [advance, bind_of_ok (peek_eq h), hrest]
  exact move_char_eq h hrest

/-- A character that stands next is accepted and passed. -/
theorem accept_eq_true (h : Behind text before cursor) (hrest : cursor.rest = c :: cs) :
    (accept text c).run cursor.position = some (.ok (true, (cursor.skip 1).position)) := by
  rw [accept, bind_of_ok (peek_eq h), hrest, List.head?_cons, if_pos rfl, bind_of_ok (move_char_eq h hrest)]
  rfl

/-- A character that does not stand next is not accepted. -/
theorem accept_eq_false (h : Behind text before cursor) (hrest : ∀ cs, cursor.rest ≠ c :: cs) :
    (accept text c).run cursor.position = some (.ok (false, cursor.position)) := by
  have hhead : cursor.rest.head? ≠ some c := by
    intro hhead
    obtain ⟨cs, hcs⟩ := List.head?_eq_some_iff.mp hhead
    exact hrest cs hcs
  rw [accept, bind_of_ok (peek_eq h), if_neg hhead]
  rfl

/-- Both readers report the same unexpected character or end. -/
theorem unexpected_eq (h : Behind text before cursor) :
    (unexpected text : OffsetReader α).run cursor.position = some (.error cursor.unexpected) := by
  rw [unexpected, bind_of_ok (show offset.run cursor.position = _ from rfl), bind_of_ok (peek_eq h)]
  rw [WireCursor.unexpected]
  cases cursor.rest with
  | nil => rfl
  | cons c cs => rfl

/-! ### Numbers -/

/-- A loop over the characters of a class ends behind the last one. -/
theorem passWhile_eq {p : Char → Bool} {front : List Char} {bound : Nat} (h : Behind text before cursor)
    (hrest : cursor.rest = front ++ cs) (hfront : ∀ c ∈ front, p c) (hend : ∀ c ∈ cs.head?, p c = false)
    (hbound : front.length < bound) :
    (passWhile text p bound).run cursor.position = some (.ok ((), (cursor.skip front.length).position)) := by
  induction front generalizing before cursor bound with
  | nil =>
    obtain ⟨bound, rfl⟩ : ∃ n, bound = n + 1 := ⟨bound - 1, by omega⟩
    rw [passWhile, bind_of_ok (peek_eq h), hrest, List.nil_append]
    cases cs with
    | nil => rfl
    | cons c cs =>
      simp only [List.head?_cons, hend c rfl]
      rfl
  | cons c front ih =>
    obtain ⟨bound, rfl⟩ : ∃ n, bound = n + 1 := ⟨bound - 1, by omega⟩
    obtain ⟨hc, hfront⟩ := List.forall_mem_cons.mp hfront
    obtain ⟨hnext, hnextRest⟩ := h.skip_one hrest
    rw [passWhile, bind_of_ok (peek_eq h), hrest, List.cons_append, List.head?_cons]
    simp only [hc, if_true]
    have hskip : cursor.skip (front.length + 1) = (cursor.skip 1).skip front.length := by
      obtain ⟨_, _⟩ := cursor
      obtain rfl := hrest
      rfl
    rw [bind_of_ok (move_char_eq h hrest), List.length_cons, hskip]
    exact ih hnext hnextRest hfront (by rw [List.length_cons] at hbound; omega)

/-- The characters of a class are cut out whole, up to the first one that is not of it. -/
theorem takeWhile_eq {p : Char → Bool} {front : List Char} (h : Behind text before cursor) (hrest : cursor.rest = front ++ cs)
    (hfront : ∀ c ∈ front, p c) (hend : ∀ c ∈ cs.head?, p c = false) :
    (takeWhile text p).run cursor.position = some (.ok (front, (cursor.skip front.length).position)) := by
  have htext : text = before ++ (front ++ cs) := h.text_eq.trans (congrArg _ hrest)
  have hbound : front.length < Text.byteSize text + 1 := by
    have hlength := Text.length_le_byteSize front
    rw [htext]
    simp only [Text.byteSize_append]
    omega
  rw [takeWhile, bind_of_ok (show offset.run cursor.position = _ from rfl),
    bind_of_ok (passWhile_eq h hrest hfront hend hbound), bind_of_ok (show offset.run _ = _ from rfl)]
  simp only [slice, h.position_eq, (h.skip hrest).1.position_eq, Text.byteSize_append, htext, Text.slice?_append,
    Option.map_some]

/-- Both readers read the same digits. -/
theorem digits_eq {base : Nat} {meaning : List Char → Option α} (h : Behind text before cursor) (start : Nat) :
    (digits text base meaning start).run cursor.position = ofCursor (cursor.digits base meaning start) := by
  obtain ⟨front, rest, hrest, hfront, hend⟩ := Text.exists_front (Text.isDigit base) cursor.rest
  rw [digits, bind_of_ok (takeWhile_eq h hrest hfront hend)]
  simp only [WireCursor.digits]
  rw [hrest, Text.takeWhile_append_of_head hfront hend]
  cases meaning front with
  | some value => rfl
  | none => rfl

theorem hex_eq (h : Behind text before cursor) : (hex text).run cursor.position = ofCursor cursor.hex :=
  digits_eq h cursor.position

theorem decimal_eq (h : Behind text before cursor) : (decimal text).run cursor.position = ofCursor cursor.decimal :=
  digits_eq h cursor.position

/-- Digits are never the least number, so they can be negated. -/
theorem negate_eq {digits : List Char} {value : Int64} (h : Text.readInt64? 10 digits = some value) (start : Nat) :
    (negate value).run start = some (.ok (-value, start)) := by
  rw [negate, if_neg (Text.ne_minValue_of_readInt64? h)]
  rfl

/-- Both readers read the same signed number, and the negation does not trap: no digits spell the least number. -/
theorem signed_eq (h : Behind text before cursor) : (signed text).run cursor.position = ofCursor cursor.signed := by
  rw [signed, bind_of_ok (show offset.run cursor.position = _ from rfl)]
  unfold WireCursor.signed
  split
  · rename_i rest hrest
    have hnext := (h.skip_one hrest).1
    rw [bind_of_ok (accept_eq_true h hrest)]
    have hnegated : (cursor.skip 1).digits 10 (fun digits => (Text.readInt64? 10 digits).map (-·)) cursor.position =
        (cursor.skip 1).digits 10 (Text.readInt64? 10) cursor.position >>= fun read => .ok (-read.1, read.2) := by
      simp only [WireCursor.digits]
      cases Text.readInt64? 10 _ with
      | some value => rfl
      | none => rfl
    rw [hnegated]
    refine bind_eq_ofCursor (digits_eq hnext cursor.position)
      (outcome_digits hnext (.inr rfl) h.position_eq) fun _ hread => ?_
    exact negate_eq hread _
  · rename_i hminus
    rw [bind_of_ok (accept_eq_false h hminus)]
    simp only [Bool.false_eq_true, if_false]
    exact bind_pure_eq.trans (digits_eq h cursor.position)

/-! ### Operands -/

/-- A text with a first and a second character begins with the two. -/
theorem exists_cons_cons {d : Char} (hfirst : cs.head? = some c) (hsecond : cs[1]? = some d) :
    ∃ rest, cs = c :: d :: rest := by
  obtain ⟨cs, rfl⟩ := List.head?_eq_some_iff.mp hfirst
  rw [List.getElem?_cons_succ, ← List.head?_eq_getElem?] at hsecond
  obtain ⟨rest, rfl⟩ := List.head?_eq_some_iff.mp hsecond
  exact ⟨rest, rfl⟩

/-- Both readers tell the mode of a read from the same two characters. -/
theorem modeOf_eq (cursor : WireCursor) : modeOf cursor.rest.head? cursor.rest[1]? = cursor.readMode := by
  unfold readMode
  split
  · rw [‹cursor.rest = _›]
    rfl
  · rw [‹cursor.rest = _›]
    rfl
  · rw [‹cursor.rest = _›]
    rfl
  · rename_i hprevious hprior hdecimal
    unfold modeOf
    split
    · obtain ⟨rest, hrest⟩ := exists_cons_cons ‹_› ‹_›
      exact absurd hrest (hprevious rest)
    · obtain ⟨rest, hrest⟩ := exists_cons_cons ‹_› ‹_›
      exact absurd hrest (hprior rest)
    · obtain ⟨rest, hrest⟩ := exists_cons_cons ‹_› ‹_›
      exact absurd hrest (hdecimal rest)
    · rfl

/-- Passing the letter of the mode leads to the cursor behind it. -/
theorem passMode_eq (h : Behind text before cursor) :
    (passMode text cursor.readMode).run cursor.position =
      some (.ok ((), (if cursor.readMode = .current then cursor else cursor.skip 1).position)) := by
  unfold readMode
  split
  · exact advance_eq h ‹_›
  · exact advance_eq h ‹_›
  · exact advance_eq h ‹_›
  · rfl

/-- The size and the address of a memory read. -/
theorem sizeAndAddress_eq {mode : ReadMode} (h : Behind text before cursor) :
    (size text >>= fun size => hex text >>= fun address => pure (.memory { mode, size, address })).run cursor.position =
      ofCursor (cursor.sizeAndAddress mode) := by
  unfold sizeAndAddress
  cases hrest : cursor.rest with
  | nil =>
    refine bind_of_error ?_
    rw [size, bind_of_ok (peek_eq h), hrest]
    exact unexpected_eq h
  | cons c rest =>
    by_cases hdigit : Text.isDigit 16 c
    · have hsize : (size text).run cursor.position = some (.ok (.word, cursor.position)) := by
        rw [size, bind_of_ok (peek_eq h), hrest]
        simp only [List.head?_cons, if_pos hdigit]
        rfl
      simp only [if_pos hdigit]
      rw [bind_of_ok hsize]
      exact map_eq_ofCursor (hex_eq h)
    · simp only [if_neg hdigit]
      cases hletter : MemorySize.ofLetter? c with
      | some found =>
        have hsize : (size text).run cursor.position = some (.ok (found, (cursor.skip 1).position)) := by
          rw [size, bind_of_ok (peek_eq h), hrest]
          simp only [List.head?_cons, if_neg hdigit, hletter]
          exact bind_of_ok (advance_eq h hrest)
        rw [bind_of_ok hsize]
        exact map_eq_ofCursor (hex_eq (h.skip_one hrest).1)
      | none =>
        refine bind_of_error ?_
        rw [size, bind_of_ok (peek_eq h), hrest]
        simp only [List.head?_cons, if_neg hdigit, hletter]
        exact unexpected_eq h

/-- Both readers read the same number of an operand. -/
theorem number_eq (h : Behind text before cursor) : (number text).run cursor.position = ofCursor cursor.number := by
  rw [number, bind_of_ok (peek_eq h)]
  unfold WireCursor.number
  cases hrest : cursor.rest with
  | nil => exact unexpected_eq h
  | cons c rest =>
    simp only [List.head?_cons]
    split
    · rw [bind_of_ok (advance_eq h hrest)]
      exact map_eq_ofCursor (hex_eq (h.skip_one hrest).1)
    · split
      · exact map_eq_ofCursor (decimal_eq h)
      · exact unexpected_eq h

/-- Both readers read the same operand. -/
theorem operand_eq (h : Behind text before cursor) : (operand text).run cursor.position = ofCursor cursor.operand := by
  have hmode := h.readMode
  rw [operand, bind_of_ok (peek_eq h), bind_of_ok (peekSecond_eq h), modeOf_eq]
  dsimp only
  rw [bind_of_ok (passMode_eq h)]
  unfold WireCursor.operand
  dsimp only
  generalize cursor.readMode = mode at hmode ⊢
  generalize (if mode = .current then cursor else cursor.skip 1) = start at hmode ⊢
  rw [bind_of_ok (peek_eq hmode), bind_of_ok (peekSecond_eq hmode)]
  have hread : ∀ {x rest}, x.utf8Size = 1 → start.rest = '0' :: x :: rest →
      (move text 2 >>= fun _ => size text >>= fun size => hex text >>= fun address =>
        pure (Operand.memory { mode, size, address })).run start.position =
          ofCursor ((start.skip 2).sizeAndAddress mode) := by
    intro x rest hx hrest
    rw [bind_of_ok (move_two_eq hmode rfl hx hrest)]
    exact sizeAndAddress_eq (hmode.skip_two hrest).1
  have hother : (if mode = .current then number text else unexpected text).run start.position =
      ofCursor (if mode = .current then start.number else .error start.unexpected) := by
    split
    · exact number_eq hmode
    · exact unexpected_eq hmode
  generalize (if mode = .current then number text else unexpected text) = other at hother ⊢
  split
  · rename_i hx
    rcases hx with ⟨hzero, hx | hx⟩
    · obtain ⟨rest, hrest⟩ := exists_cons_cons hzero hx
      rw [hrest]
      exact hread rfl hrest
    · obtain ⟨rest, hrest⟩ := exists_cons_cons hzero hx
      rw [hrest]
      exact hread rfl hrest
  · rename_i hx
    split
    · rename_i hrest
      exact absurd (by rw [hrest]; exact ⟨rfl, .inl rfl⟩) hx
    · rename_i hrest
      exact absurd (by rw [hrest]; exact ⟨rfl, .inr rfl⟩) hx
    · exact hother

/-! ### Conditions -/

/-- Both readers tell an operator from the same two characters. -/
theorem operatorOf_eq (cs : List Char) : operatorOf cs.head? cs[1]? = operator? cs := by
  rcases cs with _ | ⟨c, _ | ⟨d, cs⟩⟩
  · rfl
  · unfold operatorOf operator?
    simp only [List.head?_cons]
    split <;> simp_all
  · unfold operatorOf operator?
    simp only [List.head?_cons]
    split <;> simp_all

/-- Both readers read the same operator with its operand. -/
theorem rightSide_eq (h : Behind text before cursor) :
    (rightSide text).run cursor.position = ofCursor cursor.rightSide := by
  rw [rightSide, bind_of_ok (peek_eq h), bind_of_ok (peekSecond_eq h), operatorOf_eq]
  unfold WireCursor.rightSide
  cases hop : operator? cursor.rest with
  | none => rfl
  | some op =>
    obtain ⟨rest, hrest⟩ := exists_of_operator? hop
    have hmove := move_eq h hrest
    have hnext := (h.skip hrest).1
    rw [String.length_toList] at hmove hnext
    rw [Text.byteSize_toList] at hmove
    dsimp only
    rw [bind_of_ok hmove]
    exact map_eq_ofCursor (operand_eq hnext)

/-- Both readers read the same flag: one letter and a colon, of one byte each. -/
theorem flag_eq (h : Behind text before cursor) :
    (flag text).run cursor.position = some (.ok (cursor.flag.1, cursor.flag.2.position)) := by
  rw [flag, bind_of_ok (peekSecond_eq h)]
  unfold WireCursor.flag
  rcases hrest : cursor.rest with _ | ⟨c, _ | ⟨d, rest⟩⟩
  · rfl
  · rfl
  · by_cases hd : d = ':'
    · subst hd
      rw [if_pos (show (c :: ':' :: rest)[1]? = some ':' from rfl), bind_of_ok (peek_eq h), hrest]
      simp only [List.head?_cons, Option.bind_some]
      cases hletter : Flag.ofLetter? c with
      | none => rfl
      | some flag =>
        have hsize : c.utf8Size = 1 := by
          have hflag := Flag.letter?_of_ofLetter? hletter
          cases flag with
          | plain => cases hflag
          | _ => exact Option.some.inj hflag ▸ rfl
        exact bind_of_ok (move_two_eq h hsize rfl hrest)
    · rw [if_neg (by simpa using hd)]
      split
      · rename_i heq
        exact absurd (List.cons.inj (List.cons.inj heq).2).1 hd
      · rfl

/-- Both readers read the same hit count. -/
theorem hitCount_eq (h : Behind text before cursor) :
    (hitCount text).run cursor.position = ofCursor cursor.hitCount := by
  rw [hitCount]
  unfold WireCursor.hitCount
  split
  · rename_i rest hrest
    rw [bind_of_ok (accept_eq_true h hrest)]
    simp only [if_true]
    refine bind_eq_ofCursor (decimal_eq (h.skip_one hrest).1) (outcome_decimal (h.skip_one hrest).1) fun hnext _ => ?_
    dsimp only
    split
    · rename_i rest' hrest'
      rw [bind_of_ok (accept_eq_true hnext hrest')]
      rfl
    · rename_i hpoint
      rw [bind_of_ok (accept_eq_false hnext hpoint)]
      exact unexpected_eq hnext
  · rename_i hpoint
    rw [bind_of_ok (accept_eq_false h hpoint)]
    rfl

/-- Both readers read the same condition. -/
theorem condition_eq (h : Behind text before cursor) :
    (condition text).run cursor.position = ofCursor cursor.condition := by
  have hflag := h.flag
  rw [condition, bind_of_ok (show offset.run cursor.position = _ from rfl), bind_of_ok (flag_eq h)]
  unfold WireCursor.condition
  generalize cursor.flag = read at hflag ⊢
  obtain ⟨flag, start⟩ := read
  refine bind_eq_ofCursor (operand_eq hflag) (outcome_operand hflag) fun hleft _ => ?_
  refine bind_eq_ofCursor (rightSide_eq hleft) (outcome_rightSide hleft) fun hright _ => ?_
  dsimp only
  split
  · rfl
  · exact map_eq_ofCursor (hitCount_eq hright)

/-! ### Triggers and values -/

/-- Every turn of the loop passes the character behind a condition, so the text ends before the bound does. -/
theorem groups_eq {bound bound' : Nat} {current : List Condition} (h : Behind text before cursor)
    (hbound : cursor.rest.length < bound) (hbound' : cursor.rest.length < bound') :
    (groups text bound current).run cursor.position = ofCursor (Trigger.readGroups bound' current cursor) := by
  induction bound generalizing bound' current before cursor with
  | zero => omega
  | succ bound ih =>
    obtain ⟨bound', rfl⟩ : ∃ n, bound' = n + 1 := ⟨bound' - 1, by omega⟩
    rw [groups, Trigger.readGroups]
    refine bind_eq_ofCursor (condition_eq h) (outcome_condition h trivial) ?_
    intro condition next line hnext hcondition
    have hlength : next.rest.length ≤ cursor.rest.length := by
      rw [h.rest_eq hnext, List.length_append]
      omega
    rw [bind_of_ok (peek_eq hnext)]
    dsimp only
    cases hrest : next.rest with
    | nil => rfl
    | cons c rest =>
      obtain ⟨hskip, hskipRest⟩ := hnext.skip_one hrest
      have hgo : ∀ current, (groups text bound current).run (next.skip 1).position =
          ofCursor (Trigger.readGroups bound' current (next.skip 1)) := by
        intro current
        rw [hrest, List.length_cons] at hlength
        exact ih hskip (by rw [hskipRest]; omega) (by rw [hskipRest]; omega)
      simp only [List.head?_cons]
      split
      · exact (bind_of_ok (advance_eq hnext hrest)).trans (hgo _)
      · split
        · rw [bind_of_ok (advance_eq hnext hrest)]
          exact map_eq_ofCursor (hgo [])
        · rfl

/-- Both readers read the same trigger. -/
theorem trigger_eq (h : Behind text before cursor) :
    (trigger text).run cursor.position = ofCursor (Trigger.read cursor) := by
  have hlength := h.length_rest_le
  rw [trigger, bind_of_ok (peek_eq h)]
  unfold Trigger.read
  cases hrest : cursor.rest with
  | nil => rfl
  | cons c rest =>
    simp only [List.head?_cons]
    split
    · obtain ⟨hskip, hskipRest⟩ := h.skip_one hrest
      rw [hrest, List.length_cons] at hlength
      rw [bind_of_ok (advance_eq h hrest)]
      exact map_eq_ofCursor (groups_eq hskip (by rw [hskipRest]; omega) (Nat.lt_succ_self _))
    · exact map_eq_ofCursor (groups_eq h (by omega) (Nat.lt_succ_self _))

/-- Both readers read the same term of a value. -/
theorem term_eq (h : Behind text before cursor) : (term text).run cursor.position = ofCursor (Value.readTerm cursor) := by
  rw [term, bind_of_ok (peek_eq h)]
  unfold Value.readTerm
  have hconstant : ∀ {c rest}, cursor.rest = c :: rest →
      (advance text >>= fun _ => signed text >>= fun value => pure (ValueTerm.constant value)).run cursor.position =
        ofCursor ((cursor.skip 1).signed.map fun read => (.constant read.1, read.2)) := by
    intro c rest hrest
    rw [bind_of_ok (advance_eq h hrest)]
    exact map_eq_ofCursor (signed_eq (h.skip_one hrest).1)
  split
  · rename_i hfirst
    rcases hfirst with hfirst | hfirst
    · obtain ⟨rest, hrest⟩ := List.head?_eq_some_iff.mp hfirst
      rw [hrest]
      exact hconstant hrest
    · obtain ⟨rest, hrest⟩ := List.head?_eq_some_iff.mp hfirst
      rw [hrest]
      exact hconstant hrest
  · rename_i hfirst
    split
    · rename_i hrest
      exact absurd (.inl (by rw [hrest]; rfl)) hfirst
    · rename_i hrest
      exact absurd (.inr (by rw [hrest]; rfl)) hfirst
    · refine bind_eq_ofCursor (operand_eq h) (outcome_operand h) fun hnext _ => ?_
      dsimp only
      split
      · rename_i rest hrest
        rw [bind_of_ok (accept_eq_true hnext hrest)]
        exact map_eq_ofCursor (signed_eq (hnext.skip_one hrest).1)
      · rename_i hstar
        rw [bind_of_ok (accept_eq_false hnext hstar)]
        rfl

/-- Both readers read the same terms, whichever bounds they have, as long as these exceed the text. -/
theorem terms_eq {bound bound' : Nat} (h : Behind text before cursor)
    (hbound : cursor.rest.length < bound) (hbound' : cursor.rest.length < bound') :
    (terms text bound).run cursor.position = ofCursor (Value.readTerms bound' cursor) := by
  induction bound generalizing bound' before cursor with
  | zero => omega
  | succ bound ih =>
    obtain ⟨bound', rfl⟩ : ∃ n, bound' = n + 1 := ⟨bound' - 1, by omega⟩
    rw [terms, Value.readTerms]
    refine bind_eq_ofCursor (term_eq h) (Value.outcome_readTerm h) ?_
    intro term next passed hnext _
    have hlength : next.rest.length ≤ cursor.rest.length := by
      rw [h.rest_eq hnext, List.length_append]
      omega
    dsimp only
    split
    · rename_i rest hrest
      obtain ⟨hskip, hskipRest⟩ := hnext.skip_one hrest
      rw [hrest, List.length_cons] at hlength
      rw [bind_of_ok (accept_eq_true hnext hrest)]
      exact map_eq_ofCursor (ih hskip (by rw [hskipRest]; omega) (by rw [hskipRest]; omega))
    · rename_i hunderscore
      rw [bind_of_ok (accept_eq_false hnext hunderscore)]
      rfl

/-! ### Whole texts -/

/-- Both readers refuse a text that goes on. -/
theorem expectEnd_eq (h : Behind text before cursor) :
    (expectEnd text).run cursor.position = some (cursor.expectEnd.map fun _ => ((), cursor.position)) := by
  rw [expectEnd, bind_of_ok (peek_eq h)]
  unfold WireCursor.expectEnd
  cases hrest : cursor.rest with
  | nil => rfl
  | cons c rest => exact unexpected_eq h

/-- A reader that agrees with that of the cursor does so on the whole text. -/
theorem readAll_eq {reader : OffsetReader α} {result : Except WireError (α × WireCursor)} {Opens : List Char → Prop}
    {Spelled : α → List Char → Prop} (hreader : reader.run 0 = ofCursor result)
    (hresult : Outcome text Opens [] Spelled result) :
    readAll text reader = some (result >>= fun read => read.2.expectEnd >>= fun _ => pure read.1) := by
  rw [readAll, toEnd]
  cases hresult with
  | fault _ =>
    rw [bind_of_error hreader]
    rfl
  | @done value next _ hnext _ =>
    have hend := expectEnd_eq hnext
    rw [bind_of_ok hreader]
    change _ = some (next.expectEnd >>= fun _ => pure value)
    generalize next.expectEnd = ending at hend ⊢
    cases ending with
    | error error =>
      rw [bind_of_error hend]
      rfl
    | ok _ =>
      rw [bind_of_ok hend]
      rfl

/-- Both readers read the same value. -/
theorem value_eq (h : Behind text before cursor) :
    (value text).run cursor.position =
      ofCursor (Value.readTerms (cursor.rest.length + 1) cursor >>= fun read => pure (Value.mk read.1, read.2)) :=
  map_eq_ofCursor (terms_eq h (Nat.lt_succ_of_le h.length_rest_le) (Nat.lt_succ_self _))

end OffsetReader

/-- A reader by byte offsets never traps on a text and gives the result of the cursor, and a fault lies where it says. -/
structure ReadsSafely {α : Type} (text : List Char) (Opens : List Char → Prop) (reader : OffsetReader α)
    (result : Except WireError α) : Prop where
  readAll_eq : OffsetReader.readAll text reader = some result
  isPlaced : ∀ error, result = .error error → error.IsPlaced text Opens

/-- Conditions, triggers and values are read safely from every text. A comparison is missing in the condition itself, at the
beginning of a condition of the trigger, and in no value. -/
theorem wire_reading_is_safe (text : String) :
    ReadsSafely text.toList (· = []) (OffsetReader.condition text.toList) (Condition.ofWire text) ∧
      ReadsSafely text.toList Trigger.Opens (OffsetReader.trigger text.toList) (Trigger.ofWire text) ∧
      ReadsSafely text.toList (fun _ => False) (OffsetReader.value text.toList) (Value.ofWire text) := by
  have hstart := WireCursor.behind_ofString text
  refine ⟨⟨?_, fun _ => Condition.isPlaced_of_ofWire⟩, ⟨?_, fun _ => Trigger.isPlaced_of_ofWire⟩,
    ⟨?_, fun _ => Value.isPlaced_of_ofWire⟩⟩
  · have houtcome : WireCursor.Outcome text.toList (fun _ => True) [] Condition.Spelled _ :=
      WireCursor.outcome_condition hstart trivial
    exact OffsetReader.readAll_eq (OffsetReader.condition_eq hstart) houtcome
  · exact OffsetReader.readAll_eq (OffsetReader.trigger_eq hstart) (Trigger.outcome_read hstart)
  · have hterms : WireCursor.Outcome text.toList (fun _ => False) [] (fun _ _ => True)
        (Value.readTerms ((WireCursor.ofString text).rest.length + 1) (WireCursor.ofString text) >>= fun read =>
          pure (Value.mk read.1, read.2)) :=
      (Value.outcome_readTerms _ hstart).bind fun hnext _ => .stay hnext trivial
    rw [OffsetReader.readAll_eq (OffsetReader.value_eq hstart) hterms, bind_assoc]
    rfl

/-- The second condition multiplies and does not compare. Its fault lies behind the first one and the underscore. -/
theorem wire_reading_is_safe_sample :
    Trigger.ofWire "N:0xH1=1_0xH2*2_é" = .error (.missingComparison 9) ∧
      OffsetReader.readAll "N:0xH1=1_0xH2*2_é".toList (OffsetReader.trigger "N:0xH1=1_0xH2*2_é".toList) =
        some (.error (.missingComparison 9)) ∧
      (WireError.missingComparison 9).IsPlaced "N:0xH1=1_0xH2*2_é".toList Trigger.Opens :=
  have hfault : Trigger.ofWire "N:0xH1=1_0xH2*2_é" = .error (.missingComparison 9) := rfl
  have h := (wire_reading_is_safe "N:0xH1=1_0xH2*2_é").2.1
  ⟨hfault, h.readAll_eq.trans (congrArg some hfault), h.isPlaced _ hfault⟩

end TriggerScript
