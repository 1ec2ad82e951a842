import TriggerScript.Condition.Wire

/-!
# Triggers

A trigger is a core group of conditions and any number of alternative groups. In the wire format the conditions of a group
stand between underscores and the groups between dollar signs; a reader also takes an `S` for a dollar sign.
-/

namespace TriggerScript

/-- Groups of conditions: it fires when the core holds and, if there are alternatives, one of them. -/
structure Trigger where
  /-- The conditions that always have to hold. -/
  core : List Condition := []
  /-- The alternative groups. -/
  alternatives : List (List Condition) := []
  deriving DecidableEq, Repr, Inhabited

namespace Trigger

/-- The groups of a trigger, the core first. -/
def groups (trigger : Trigger) : List (List Condition) :=
  trigger.core :: trigger.alternatives

/-- A group in the wire format. -/
def groupWire (group : List Condition) : String :=
  "_".intercalate (group.map Condition.wire)

/-- A trigger in the wire format. -/
def wire (trigger : Trigger) : String :=
  "$".intercalate (trigger.groups.map groupWire)

/-- Whether a character separates two groups. -/
def isSeparator (c : Char) : Bool :=
  c = 'S' || c = '$'

/-- Reads conditions and the groups they fall into, given the conditions of the open group in reverse; each condition
reads at least one character, so the length of the text bounds their number. -/
def readGroups : Nat → List Condition → WireReader (List (List Condition))
  | 0, _, cursor => .error cursor.unexpected
  | bound + 1, current, cursor => do
    let (condition, cursor) ← cursor.condition
    match cursor.rest with
    | c :: _ =>
      if c = '_' then
        readGroups bound (condition :: current) (cursor.skip 1)
      else if isSeparator c then
        let (groups, cursor) ← readGroups bound [] (cursor.skip 1)
        return ((condition :: current).reverse :: groups, cursor)
      else
        return ([(condition :: current).reverse], cursor)
    | [] => return ([(condition :: current).reverse], cursor)

/-- Reads groups up to a character that cannot go on with one. -/
def readAllGroups : WireReader (List (List Condition)) := fun cursor =>
  readGroups (cursor.rest.length + 1) [] cursor

/-- Reads a trigger: nothing at all, alternatives behind a leading separator, or a core and alternatives. -/
def read : WireReader Trigger := fun cursor =>
  match cursor.rest with
  | [] => .ok ({}, cursor)
  | c :: _ => do
    if isSeparator c then
      let (groups, cursor) ← readAllGroups (cursor.skip 1)
      return ({ alternatives := groups }, cursor)
    else
      let (groups, cursor) ← readAllGroups cursor
      return ({ core := groups.headD [], alternatives := groups.tail }, cursor)

/-- Reads a whole text as a trigger. -/
def ofWire (text : String) : Except WireError Trigger := do
  let (trigger, cursor) ← read (WireCursor.ofString text)
  cursor.expectEnd
  return trigger

end Trigger

end TriggerScript
