import TriggerScript.Expr.Basic

/-!
# Statements

What a script does, step by step: assignments, function definitions, loops, choices, and expressions that stand alone.
-/

namespace TriggerScript

/-- A parameter of a function, with the expression it stands for when no argument is given. -/
structure Parameter where
  /-- The name of the parameter. -/
  name : String
  /-- Its default, if it has one. -/
  default? : Option Expr
  deriving Inhabited, Repr

/-- Statements of scripts. -/
inductive Stmt where
  /-- Binds a name, or changes the entry under the indices of the dictionary bound to it. -/
  | assign (name : String) (indices : List Expr) (value : Expr)
  /-- Defines a function. -/
  | define (name : String) (parameters : List Parameter) (body : List Stmt) (span : Span)
  /-- Runs a block for each item of a collection. -/
  | loop (name : String) (collection : Expr) (body : List Stmt)
  /-- Runs one of two blocks. -/
  | choose (condition : Expr) (yes no : List Stmt)
  /-- A call, or the end of a function. -/
  | expression (value : Expr)
  deriving Inhabited, Repr

/-- A defined function. -/
structure Function where
  /-- The name of the function. -/
  name : String
  /-- Its parameters. -/
  parameters : List Parameter
  /-- What it does. -/
  body : List Stmt
  /-- Where it is defined. -/
  span : Span
  deriving Inhabited, Repr

/-- The immediate expressions of a statement, in the order they are written. -/
def Stmt.expressions : Stmt → List Expr
  | .assign _ indices value => indices ++ [value]
  | .define .. => []
  | .loop _ collection _ => [collection]
  | .choose condition _ _ => [condition]
  | .expression value => [value]

end TriggerScript
