import TriggerScript.Condition.Wire

/-!
# Values

The number that a leaderboard submits or a rich presence line shows: terms that are added up in each frame. In the wire
format the terms stand between underscores.
-/

namespace TriggerScript

/-- One term of a value. -/
inductive ValueTerm where
  /-- An operand, taken a number of times. -/
  | scaled (operand : Operand) (multiplier : Int64)
  /-- A number. -/
  | constant (value : Int64)
  deriving DecidableEq, Repr

/-- Terms that are added up. -/
structure Value where
  /-- The terms. -/
  terms : List ValueTerm := []
  deriving DecidableEq, Repr, Inhabited

/-- A term in the wire format; a multiplier of one is not written. -/
def ValueTerm.wire : ValueTerm → String
  | .scaled operand multiplier =>
    if multiplier = 1 then operand.wire else operand.wire ++ "*" ++ toString multiplier.toInt
  | .constant value => "v" ++ toString value.toInt

namespace Value

/-- A value in the wire format. -/
def wire (value : Value) : String :=
  "_".intercalate (value.terms.map ValueTerm.wire)

/-- Reads a term. -/
def readTerm : WireReader ValueTerm := fun cursor =>
  match cursor.rest with
  | 'v' :: _ | 'V' :: _ => (cursor.skip 1).signed.map fun (value, cursor) => (.constant value, cursor)
  | _ => do
    let (operand, cursor) ← cursor.operand
    match cursor.rest with
    | '*' :: _ => (cursor.skip 1).signed.map fun (multiplier, cursor) => (.scaled operand multiplier, cursor)
    | _ => return (.scaled operand 1, cursor)

/-- Reads terms between underscores; each reads at least one character, so the length of the text bounds their number. -/
def readTerms : Nat → WireReader (List ValueTerm)
  | 0, cursor => .error cursor.unexpected
  | bound + 1, cursor => do
    let (term, cursor) ← readTerm cursor
    match cursor.rest with
    | '_' :: _ =>
      let (terms, cursor) ← readTerms bound (cursor.skip 1)
      return (term :: terms, cursor)
    | _ => return ([term], cursor)

/-- Reads a whole text as a value. -/
def ofWire (text : String) : Except WireError Value := do
  let cursor := WireCursor.ofString text
  let (terms, cursor) ← readTerms (cursor.rest.length + 1) cursor
  cursor.expectEnd
  return { terms }

end Value

end TriggerScript
