import TriggerScript.Builtin.Arguments

/-!
# Functions that give values

Reads of memory, conditions, ranges of integers and lengths. A read has a constant address; in the current frame it can be
moved to another frame, once. Conditions are modified, tallied, or never change.
-/

namespace TriggerScript

/-- The number of integers from one to another in steps. -/
def rangeLength (start stop step : Int) : Nat :=
  if 0 < step then
    if stop < start then 0 else ((stop - start) / step).toNat + 1
  else
    if start < stop then 0 else ((start - stop) / (-step)).toNat + 1

/-- The integers from one to another in steps that are not zero, both ends included. -/
def rangeValues (start stop step : Int64) : List Int64 :=
  (List.range (rangeLength start.toInt stop.toInt step.toInt)).map fun (k : Nat) =>
    Int64.ofInt (start.toInt + k * step.toInt)

namespace Arguments

variable (args : Arguments)

/-! ## Reads of memory -/

/-- An address. -/
def address (index : Nat) : Except Error UInt32 := do
  match ← args.get index "address" with
  | .integer _ value =>
    match uint32? value.toInt with
    | some address => return address
    | none => throw (args.error (.addressOutOfRange value))
  | .memory .. | .arithmetic .. => throw (args.error .indirectAddress)
  | value => throw (args.kindError "address" "an integer constant" value)

/-- Reads memory of a size. -/
def readMemory (size : MemorySize) : Except Error Expr := do
  args.expectBetween 1 1
  return .memory args.mark (.ofSize size (← args.address 0))

/-- Reads the bit with an index. -/
def readBit : Except Error Expr := do
  args.expectBetween 2 2
  let index ← args.integer 0 "index"
  match MemorySize.bit? index.toInt with
  | some size => return .memory args.mark (.ofSize size (← args.address 1))
  | none => throw (args.error (.noSuchBit index))

/-- Gives a read another mode. -/
def withMode (mode : ReadMode) : Except Error Expr := do
  args.expectBetween 1 1
  match ← args.get 0 "accessor" with
  | .memory mark read =>
    if read.mode = .current then return .memory args.mark { read with mode }
    else throw (args.error (.modeTaken (.memory mark read)))
  | value => throw (args.error (.notRead value.kindName))

/-! ## Conditions -/

/-- Modifies a condition. -/
def modify (modifier : Modifier) : Except Error Expr := do
  args.expectBetween 1 1
  return .modified args.mark modifier (← args.condition 0 "condition")

/-- Asks a condition to hold in a number of frames. -/
def repeatCondition : Except Error Expr := do
  args.expectBetween 2 2
  let count ← args.positive 0 "count"
  return .modified args.mark (.repeated count) (← args.condition 1 "condition")

/-- The conditions of a tally; arrays of conditions are taken apart. -/
def tallyEntries (values : List Expr) : List Expr :=
  values.flatMap fun value => match value with
    | .array _ entries => entries
    | value => [value]

/-- Counts the frames of conditions together. -/
def tallyConditions : Except Error Expr := do
  args.expectAtLeast 2
  let target ← args.positive 0 "count"
  let entries := tallyEntries args.values.tail
  entries.forM (args.checkCondition "condition")
  if entries.isEmpty then
    throw (args.error .noConditions)
  return .tally args.mark target entries

/-- A condition without arguments. -/
def constantCondition (condition : Expr) : Except Error Expr := do
  args.expectBetween 0 0
  return condition

/-! ## Ranges and lengths -/

/-- The array of a range of integers. -/
def rangeArray : Except Error Expr := do
  args.expectBetween 2 3
  let start ← args.integer 0 "start"
  let stop ← args.integer 1 "end"
  let step ← match args.values[2]? with
    | some _ => args.integer 2 "step"
    | none => pure 1
  if step = 0 then
    throw (args.error .zeroStep)
  return .array args.mark ((rangeValues start stop step).map (.integer args.mark))

/-- The number of entries or characters. -/
def lengthOf : Except Error Expr := do
  args.expectBetween 1 1
  match ← args.get 0 "value" with
  | .array _ entries => return count entries.length
  | .dictionary _ entries => return count entries.length
  | .text _ value => return count value.length
  | value => throw (args.kindError "value" "an array, dictionary or string" value)
where
  /-- A number of things. -/
  count (n : Nat) : Expr := .integer args.mark (Int64.ofNat n)

end Arguments

end TriggerScript
