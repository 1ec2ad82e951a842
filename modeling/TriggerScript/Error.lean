import TriggerScript.Fault.Argument
import TriggerScript.Fault.Lowering
import TriggerScript.Fault.Parse
import TriggerScript.RichPresence

/-!
# Errors

What ends the reading or the running of a script: a fault, the place it is reported at, and the expression that caused it if
there is one to show.
-/

namespace TriggerScript

/-- Why a script cannot go on. -/
inductive EvalFault where
  /-- No variable and no function has this name. -/
  | unknownVariable (name : String)
  /-- The value of a variable depends on itself. -/
  | recursiveReference (name : String)
  /-- No function has this name. -/
  | unknownFunction (name : String)
  /-- A function ended without a value where one is needed. -/
  | noResult (name : String)
  /-- An expression of this kind has no value. -/
  | notValue (kind : String)
  /-- A connective lacks its left operand. -/
  | missingLeft
  /-- A condition that cannot be decided while the script runs. -/
  | notConstant (condition : Expr)
  /-- A result outside of 64 bits. -/
  | overflow
  /-- A division by zero. -/
  | divisionByZero
  /-- Operands of these kinds do not fit an operator. -/
  | incompatible (op left right : String)
  /-- An operand of this kind does not fit a connective. -/
  | notOperand (op : LogicalOp) (kind : String)
  /-- A dictionary has no such key. -/
  | noEntry (key : Expr)
  /-- A thing of this kind has no entries. -/
  | notDictionary (what kind : String)
  /-- A dictionary has a key twice. -/
  | duplicateKey (key : Expr)
  /-- Calls are nested too deeply. -/
  | depthExceeded (name : String)
  /-- A call has more arguments than the function has parameters. -/
  | tooManyArguments (name : String) (expected count : Nat)
  /-- A call leaves out an argument that has no default. -/
  | missingArgument (parameter name : String)
  /-- A function is defined inside of a block. -/
  | nestedDefinition
  /-- A function takes the name of a built-in one. -/
  | builtinRedefined (name : String)
  /-- Two functions have one name. -/
  | duplicateFunction (name : String)
  /-- A loop changes its own variable. -/
  | loopVariableModified (name : String)
  /-- A thing of this kind cannot be looped over. -/
  | notIterable (kind : String)
  /-- An expression that does nothing. -/
  | idleStatement
  /-- A script returns outside of a function. -/
  | returnOutside
  /-- Rich presence has lines with conditions but none without. -/
  | noDefaultDisplay
  /-- A built-in function refuses its arguments. -/
  | argument (function : String) (fault : ArgumentFault)
  /-- An expression cannot be lowered. -/
  | lowering (fault : LoweringFault)
  /-- Rich presence refuses a registration. -/
  | presence (fault : PresenceFault)
  deriving Repr

/-- The wording of a fault of evaluation. -/
def EvalFault.message : EvalFault → String
  | .unknownVariable name => "Unknown variable: " ++ name
  | .recursiveReference name => "Recursive reference to variable: " ++ name
  | .unknownFunction name => "Unknown function: " ++ name
  | .noResult name => name ++ " did not return a value"
  | .notValue kind => kind ++ " is not a value"
  | .missingLeft => "Missing left operand"
  | .notConstant condition => "Expression does not evaluate to a constant boolean: " ++ condition.render
  | .overflow => "Integer overflow"
  | .divisionByZero => "Division by zero"
  | .incompatible op left right => s!"Cannot apply '{op}' to {left} and {right}"
  | .notOperand op kind => s!"Cannot apply '{op.spelling}' to {kind}"
  | .noEntry key => "No entry in dictionary for key: " ++ key.render
  | .notDictionary what kind => s!"Cannot index: {what} ({kind})"
  | .duplicateKey key => "Duplicate key in dictionary: " ++ key.render
  | .depthExceeded name => "Maximum call depth exceeded calling " ++ name
  | .tooManyArguments name expected count =>
    s!"Too many parameters passed to {name}: expected {expected}, got {count}"
  | .missingArgument parameter name => s!"Required parameter '{parameter}' not provided to {name}"
  | .nestedDefinition => "Functions may only be defined at the top level"
  | .builtinRedefined name => name ++ " is a built-in function and cannot be redefined"
  | .duplicateFunction name => "Duplicate function definition: " ++ name
  | .loopVariableModified name => "Cannot modify loop variable " ++ name
  | .notIterable kind => "Cannot iterate over " ++ kind
  | .idleStatement => "Only assignments and function calls can be used as statements"
  | .returnOutside => "return is only valid inside a function"
  | .noDefaultDisplay =>
    "rich_presence_conditional_display requires a rich_presence_display for the default case"
  | .argument function fault => function ++ ": " ++ fault.message
  | .lowering fault => fault.message
  | .presence fault => fault.message

/-- What is wrong with a script: its form, or what it does. -/
inductive Fault where
  | parse (fault : ParseFault)
  | evaluation (fault : EvalFault)
  deriving Repr

/-- The wording of a fault. -/
def Fault.message : Fault → String
  | .parse fault => fault.message
  | .evaluation fault => fault.message

/-- A fault with its place and its cause. -/
structure Error where
  /-- What is wrong. -/
  fault : Fault
  /-- Where it is reported. -/
  span : Span
  /-- The expression that caused it. -/
  cause? : Option Expr := none
  deriving Repr

namespace Error

/-- The wording of an error. -/
def message (error : Error) : String :=
  error.fault.message

/-- An error of form. -/
def parse (fault : ParseFault) (span : Span) (cause? : Option Expr) : Error :=
  { fault := .parse fault, span, cause? }

/-- An error of evaluation without a cause to show. -/
def evaluation (fault : EvalFault) (span : Span) : Error :=
  { fault := .evaluation fault, span }

/-- An error of evaluation, caused by an expression. -/
def causedBy (fault : EvalFault) (span : Span) (cause : Expr) : Error :=
  { fault := .evaluation fault, span, cause? := some cause }

/-- An error of lowering, at the expression that caused it. -/
def lowering (fault : LoweringFault) (cause : Expr) : Error :=
  .causedBy (.lowering fault) cause.span cause

/-- A token that cannot be read is an error of form. -/
def ofLexError (error : LexError) : Error :=
  .parse (.token error.fault) error.span none

end Error

end TriggerScript
