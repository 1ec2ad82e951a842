import TriggerScript.Expr.Basic

/-!
# Printing expressions

An expression prints as the text of a script. Operands stand in parentheses where their operator binds less tightly than
the place requires, and connectives that were marked as one unit keep their parentheses.
-/

namespace TriggerScript

/-- One character inside a string literal of a script. -/
def literalChar : Char → List Char
  | '"' => ['\\', '"']
  | '\\' => ['\\', '\\']
  | '\n' => ['\\', 'n']
  | '\t' => ['\\', 't']
  | c => [c]

/-- A text as a string literal of a script. -/
def textLiteral (value : String) : String :=
  String.ofList ('"' :: value.toList.flatMap literalChar ++ ['"'])

/-- The call that a modifier prints as, up to its condition. -/
def Modifier.opening : Modifier → String
  | .repeated count => if count = 1 then "once(" else "repeated(" ++ toString count.toNat ++ ", "
  | .never => "never("
  | .unless => "unless("
  | .triggerWhen => "trigger_when("
  | .measured => "measured("
  | .deduct => "deduct("

/-- The function that a rich presence macro prints as. -/
def MacroDisplay.functionName : MacroDisplay → String
  | .value _ => "rich_presence_value"
  | .lookup .. => "rich_presence_lookup"

namespace Expr

/-- How tightly the root of an expression binds; seven for what needs no parentheses anywhere. -/
def precedence : Expr → Nat
  | .returned .. => 0
  | .logical _ .or _ _ => 1
  | .logical _ .and _ _ => 2
  | .logical _ .not _ _ => 3
  | .comparison .. => 4
  | .arithmetic _ .add _ _ | .arithmetic _ .subtract _ _ => 5
  | .arithmetic .. => 6
  | _ => 7

/-- Whether an expression keeps its parentheses as an operand in any place. -/
def isGrouped : Expr → Bool
  | .logical mark _ _ _ => mark.unit
  | _ => false

/-- The text of an operand, given its own text, in a place for operators that bind at least this tightly. -/
def operandText (e : Expr) (least : Nat) (text : String) : String :=
  if e.isGrouped || e.precedence < least then "(" ++ text ++ ")" else text

mutual

/-- The text of an expression in a script. -/
def render : Expr → String
  | .integer _ value => toString value.toInt
  | .text _ value => textLiteral value
  | .boolean _ value => if value then "true" else "false"
  | .var _ name | .functionRef _ name => name
  | .indexed _ base index => base.render ++ "[" ++ index.render ++ "]"
  | .array _ entries => "[" ++ renderList entries ++ "]"
  | .dictionary _ entries => "\x7b" ++ renderEntries entries ++ "\x7d"
  | .arithmetic mark op left right =>
    let binding := (Expr.arithmetic mark op left right).precedence
    left.operandText binding left.render ++ " " ++ op.spelling ++ " " ++
      right.operandText (binding + 1) right.render
  | .logical _ .and (some left) right =>
    left.operandText 2 left.render ++ " && " ++ right.operandText 3 right.render
  | .logical _ .or (some left) right =>
    left.operandText 1 left.render ++ " || " ++ right.operandText 2 right.render
  | .logical _ _ _ right => "!" ++ right.operandText 3 right.render
  | .comparison _ op left right =>
    left.operandText 5 left.render ++ " " ++ op.spelling ++ " " ++ right.operandText 5 right.render
  | .call _ name args => name ++ "(" ++ renderList args ++ ")"
  | .returned _ value => "return " ++ value.render
  | .memory _ read => read.render
  | .modified _ modifier condition => modifier.opening ++ condition.render ++ ")"
  | .tally _ target entries => "tally(" ++ toString target.toNat ++ ", " ++ renderList entries ++ ")"
  | .alwaysTrue _ => "always_true()"
  | .alwaysFalse _ => "always_false()"
  | .presence _ name display value =>
    display.functionName ++ "(" ++ textLiteral name ++ ", " ++ value.render ++ ")"

/-- The texts of expressions, separated by commas. -/
def renderList : List Expr → String
  | [] => ""
  | [e] => e.render
  | e :: es => e.render ++ ", " ++ renderList es

/-- The texts of dictionary entries, separated by commas. -/
def renderEntries : List (Expr × Expr) → String
  | [] => ""
  | [(key, value)] => key.render ++ ": " ++ value.render
  | (key, value) :: entries => key.render ++ ": " ++ value.render ++ ", " ++ renderEntries entries

end

end Expr

end TriggerScript
