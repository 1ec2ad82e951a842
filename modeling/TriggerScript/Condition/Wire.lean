import TriggerScript.Condition
import TriggerScript.Number

/-!
# The wire format of conditions

A condition is written as its flag, its left operand, an operator with the right operand, and the hit count between points.
A cursor reads the text back; it knows how many bytes it has passed, and a fault names the byte where it stands.
-/

namespace TriggerScript

/-- Why a text in the wire format cannot be read. -/
inductive WireError where
  /-- A character stands where none of its kind may. -/
  | unexpectedCharacter (c : Char) (position : Nat)
  /-- The text ends too early. -/
  | unexpectedEnd (position : Nat)
  /-- Digits that are missing or spell too large a number. -/
  | invalidNumber (digits : String) (position : Nat)
  /-- A condition that needs a comparison and has none. -/
  | missingComparison (position : Nat)
  /-- A section of a leaderboard that is not there. -/
  | missingSection (name : String)
  /-- A section of a leaderboard with another name. -/
  | unknownSection (name : String)
  deriving DecidableEq, Repr

/-- The wording of a fault in the wire format. -/
def WireError.message : WireError → String
  | .unexpectedCharacter c position => s!"Unexpected character '{c}' at position {position}"
  | .unexpectedEnd position => s!"Unexpected end of input at position {position}"
  | .invalidNumber digits position => s!"Invalid number '{digits}' at position {position}"
  | .missingComparison position => s!"Condition at position {position} requires a comparison"
  | .missingSection name => s!"Missing {name} section"
  | .unknownSection name => s!"Unknown section '{name}'"

/-! ## Writing -/

/-- An operand in the wire format. -/
def Operand.wire : Operand → String
  | .memory read => read.wire
  | .number value => toString value.toNat

/-- The text of a flag before its condition. -/
def Flag.wire (flag : Flag) : String :=
  match flag.letter? with
  | some letter => String.singleton letter ++ ":"
  | none => ""

/-- A condition in the wire format. -/
def Condition.wire (condition : Condition) : String :=
  let right := match condition.right? with
    | some (op, operand) => op.spelling ++ operand.wire
    | none => ""
  let hits := if condition.hits = 0 then "" else "." ++ toString condition.hits.toNat ++ "."
  condition.flag.wire ++ condition.left.wire ++ right ++ hits

/-! ## Reading -/

/-- A place in a text of the wire format. -/
structure WireCursor where
  /-- The characters still to be read. -/
  rest : List Char
  /-- The number of bytes passed. -/
  position : Nat := 0
  deriving DecidableEq, Repr

/-- What a reader makes of a text: a thing and the place behind it, or a fault. -/
abbrev WireReader (α : Type) := WireCursor → Except WireError (α × WireCursor)

namespace WireCursor

/-- The beginning of a text. -/
def ofString (text : String) : WireCursor :=
  { rest := text.toList }

/-- The place behind a number of characters. -/
def skip : Nat → WireCursor → WireCursor
  | 0, cursor => cursor
  | n + 1, cursor =>
    match cursor.rest with
    | [] => cursor
    | c :: rest => skip n { rest, position := cursor.position + c.utf8Size }

/-- The fault of a text that goes on, or ends, where it may not. -/
def unexpected (cursor : WireCursor) : WireError :=
  match cursor.rest with
  | c :: _ => .unexpectedCharacter c cursor.position
  | [] => .unexpectedEnd cursor.position

/-- Refuses a text that goes on. -/
def expectEnd (cursor : WireCursor) : Except WireError Unit :=
  if cursor.rest.isEmpty then .ok () else .error cursor.unexpected

/-- Reads digits of a base with the given meaning; a fault is placed where the number begins. -/
def digits {α : Type} (base : Nat) (meaning : List Char → Option α) (start : Nat) : WireReader α := fun cursor =>
  let found := cursor.rest.takeWhile (Text.isDigit base)
  match meaning found with
  | some value => .ok (value, cursor.skip found.length)
  | none => .error (.invalidNumber (String.ofList found) start)

/-- Reads a hexadecimal number. -/
def hex : WireReader UInt32 := fun cursor =>
  cursor.digits 16 (Text.readUInt32? 16) cursor.position

/-- Reads a decimal number. -/
def decimal : WireReader UInt32 := fun cursor =>
  cursor.digits 10 (Text.readUInt32? 10) cursor.position

/-- Reads a decimal number that may have a minus sign. -/
def signed : WireReader Int64 := fun cursor =>
  match cursor.rest with
  | '-' :: _ => (cursor.skip 1).digits 10 (fun ds => (Text.readInt64? 10 ds).map (-·)) cursor.position
  | _ => cursor.digits 10 (Text.readInt64? 10) cursor.position

/-- The mode that the letter before a read gives it; the letter counts only before a zero. -/
def readMode (cursor : WireCursor) : ReadMode :=
  match cursor.rest with
  | 'd' :: '0' :: _ => .previous
  | 'p' :: '0' :: _ => .prior
  | 'b' :: '0' :: _ => .decimal
  | _ => .current

/-- Reads the size and the address of a memory read; without a size letter it reads a word. -/
def sizeAndAddress (mode : ReadMode) : WireReader Operand := fun cursor =>
  match cursor.rest with
  | [] => .error cursor.unexpected
  | c :: _ =>
    if Text.isDigit 16 c then address .word cursor
    else
      match MemorySize.ofLetter? c with
      | some size => address size (cursor.skip 1)
      | none => .error cursor.unexpected
where
  /-- Reads the address of a memory read of a known size. -/
  address (size : MemorySize) : WireReader Operand := fun cursor => do
    let (address, cursor) ← cursor.hex
    return (.memory { mode, size, address }, cursor)

/-- Reads a number, hexadecimal after an `h`. -/
def number : WireReader Operand := fun cursor =>
  match cursor.rest with
  | [] => .error cursor.unexpected
  | c :: _ =>
    if c = 'h' ∨ c = 'H' then (cursor.skip 1).hex.map fun (value, cursor) => (.number value, cursor)
    else if Text.isDigit 10 c then cursor.decimal.map fun (value, cursor) => (.number value, cursor)
    else .error cursor.unexpected

/-- Reads an operand. -/
def operand : WireReader Operand := fun cursor =>
  let mode := cursor.readMode
  let cursor := if mode = .current then cursor else cursor.skip 1
  match cursor.rest with
  | '0' :: 'x' :: _ => (cursor.skip 2).sizeAndAddress mode
  | '0' :: 'X' :: _ => (cursor.skip 2).sizeAndAddress mode
  | _ => if mode = .current then cursor.number else .error cursor.unexpected

/-- The operator at the front of a text. -/
def operator? : List Char → Option Operator
  | '=' :: _ => some (.compare .equal)
  | '!' :: '=' :: _ => some (.compare .notEqual)
  | '<' :: '=' :: _ => some (.compare .lessEqual)
  | '<' :: _ => some (.compare .less)
  | '>' :: '=' :: _ => some (.compare .greaterEqual)
  | '>' :: _ => some (.compare .greater)
  | '*' :: _ => some .multiply
  | '/' :: _ => some .divide
  | _ => none

/-- Reads an operator and the operand after it, if there is an operator. -/
def rightSide : WireReader (Option (Operator × Operand)) := fun cursor =>
  match operator? cursor.rest with
  | none => .ok (none, cursor)
  | some op => do
    let (operand, cursor) ← (cursor.skip op.spelling.length).operand
    return (some (op, operand), cursor)

/-- Reads a flag, if a flag letter and a colon stand here. -/
def flag (cursor : WireCursor) : Flag × WireCursor :=
  match cursor.rest with
  | c :: ':' :: _ =>
    match Flag.ofLetter? c with
    | some flag => (flag, cursor.skip 2)
    | none => (.plain, cursor)
  | _ => (.plain, cursor)

/-- Reads a hit count between points, if there is one. -/
def hitCount : WireReader UInt32 := fun cursor =>
  match cursor.rest with
  | '.' :: _ => do
    let (count, cursor) ← (cursor.skip 1).decimal
    match cursor.rest with
    | '.' :: _ => return (count, cursor.skip 1)
    | _ => throw cursor.unexpected
  | _ => .ok (0, cursor)

/-- Reads a condition. Only a source may do without a comparison. -/
def condition : WireReader Condition := fun start => do
  let (flag, cursor) := start.flag
  let (left, cursor) ← cursor.operand
  let (right?, cursor) ← cursor.rightSide
  if !flag.isSource && !right?.any (·.1.isComparison) then
    throw (.missingComparison start.position)
  else
    let (hits, cursor) ← cursor.hitCount
    return ({ flag, left, right?, hits }, cursor)

end WireCursor

/-- Reads a whole text as a condition. -/
def Condition.ofWire (text : String) : Except WireError Condition := do
  let (condition, cursor) ← (WireCursor.ofString text).condition
  cursor.expectEnd
  return condition

end TriggerScript
