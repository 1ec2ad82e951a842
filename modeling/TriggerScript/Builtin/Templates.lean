import TriggerScript.Builtin.Arguments
import TriggerScript.Eval.Basic

/-!
# Templates

A template holds placeholders, digits between braces, that stand for the texts of parameters. A template is cut once into
pieces, from left to right, and its placeholders are replaced one after the other; the text that replaces a placeholder is
never looked at again.
-/

namespace TriggerScript

namespace Text

/-- A piece of a template. -/
inductive Piece where
  /-- A character that stands for itself. -/
  | literal (c : Char)
  /-- A placeholder with the digits between its braces. -/
  | placeholder (digits : List Char)
  /-- An opening brace that begins no placeholder; nothing after it is read. -/
  | malformed
  deriving DecidableEq, Repr

/-- Cuts a template into pieces; inside a placeholder, the digits read so far are given in reverse. -/
def piecesFrom : Option (List Char) → List Char → List Piece
  | none, [] => []
  | none, c :: rest => if c = '\x7b' then piecesFrom (some []) rest else .literal c :: piecesFrom none rest
  | some _, [] => [.malformed]
  | some digits, c :: rest =>
    if c = '\x7d' then .placeholder digits.reverse :: piecesFrom none rest
    else if isDigit 10 c then piecesFrom (some (c :: digits)) rest
    else [.malformed]

/-- The pieces of a template. -/
def pieces (template : String) : List Piece :=
  piecesFrom none template.toList

/-- The parameter that the digits of a placeholder name. -/
def parameter? {α : Type} (parameters : List α) (digits : List Char) : Option α :=
  if digits.isEmpty then none else (valueOfDigits? 10 0 digits).bind (parameters[·]?)

end Text

/-! ## Filling -/

namespace Arguments

variable (args : Arguments)

/-- Fills the pieces of a template after a text already made; `render` makes the text of a parameter. -/
def fillPieces (template : String) (parameters : List Expr) (render : Expr → Eval String) :
    String → List Text.Piece → Eval String
  | filled, [] => pure filled
  | filled, .literal c :: rest => fillPieces template parameters render (filled.push c) rest
  | filled, .placeholder digits :: rest =>
    match Text.parameter? parameters digits with
    | some parameter => do
      let text ← render parameter
      fillPieces template parameters render (filled ++ text) rest
    | none => Run.fail (args.error (.invalidParameter (String.ofList digits)))
  | _, .malformed :: _ => Run.fail (args.error (.invalidPlaceholder template))

/-- Fills a template. -/
def fill (template : String) (parameters : List Expr) (render : Expr → Eval String) : Eval String :=
  args.fillPieces template parameters render "" (Text.pieces template)

/-- A parameter that has to be a constant. -/
def constantParameter (expected : String) (value : Expr) : Except Error String :=
  match value.constantText? with
  | some text => .ok text
  | none => .error (args.kindError "parameter" expected value)

/-- A text made from a template. -/
def formatText : Eval Expr := do
  args.expectAtLeast 1
  let template ← args.text 0 "format"
  let text ← args.fill template (args.values.drop 1) fun value => args.constantParameter "a constant" value
  return .text args.mark text

end Arguments

end TriggerScript
