import TriggerScript.Expr.Parser
import TriggerScript.Stmt

/-!
# Reading statements

A script is a sequence of statements. A nested statement stands behind at least one token of its own, so the number of
tokens bounds the nesting here too.
-/

namespace TriggerScript

namespace Parser

/-- The name and the indices that an assignment to an expression changes. -/
def assignTarget? : Expr → Option (String × List Expr)
  | .var mark name => if mark.unit then none else some (name, [])
  | .indexed _ base index => (assignTarget? base).map fun (name, indices) => (name, indices ++ [index])
  | _ => none

/-- The parameters of a function up to the closing parenthesis, after those already read. -/
def parameters : Nat → List Parameter → Parser (List Parameter)
  | 0, _ => failExpecting .parameterName none
  | bound + 1, earlier => do
    if (← peek) = .symbol .rightParen then
      let _ ← advance
      return earlier
    else
      let span := (← current).span
      let name ← expectName .parameterName
      if earlier.any (·.name = name) then
        fail (.duplicateParameter name) span none
      else
        let all := earlier ++ [{ name, default? := ← default? earlier name span }]
        if (← peek) = .symbol .rightParen then
          let _ ← advance
          return all
        else
          expect (.symbol .comma) .parameterComma
          parameters bound all
where
  /-- The default of a parameter; it may be missing only if no earlier parameter has one. -/
  default? (earlier : List Parameter) (name : String) (span : Span) : Parser (Option Expr) := do
    if (← peek) = .symbol .assign then
      let _ ← advance
      some <$> expression
    else if earlier.any (·.default?.isSome) then
      fail (.missingDefault name) span none
    else
      return none

/-- An assignment or an expression that stands alone. -/
def simpleStatement : Parser Stmt := do
  let e ← expression
  if (← peek) = .symbol .assign then
    match assignTarget? e with
    | some (name, indices) =>
      let _ ← advance
      return .assign name indices (← expression)
    | none => fail (.invalid .assignmentTarget) e.span (some e)
  else
    return .expression e

section Blocks

variable (nested : Parser Stmt)

/-- Statements up to a closing brace, which is read too; each reads at least one token. -/
def statementsUntilBrace : Nat → Parser (List Stmt)
  | 0 => failExpecting .closingBrace none
  | bound + 1 => do
    let next ← peek
    if next = .symbol .rightBrace then
      let _ ← advance
      return []
    else if next = .endOfScript then
      failExpecting .closingBrace none
    else
      let first ← nested
      let others ← statementsUntilBrace bound
      return first :: others

/-- A block in braces. -/
def block : Parser (List Stmt) := do
  expect (.symbol .leftBrace) .openingBrace
  statementsUntilBrace nested ((← remaining) + 1)

/-- The body of a function: a block, or an arrow and the expression that it returns. -/
def functionBody : Parser (List Stmt) := do
  let token ← current
  if token.kind = .symbol .arrow then
    let _ ← advance
    return [.expression (.returned { span := token.span } (← expression))]
  else
    block nested

/-- A function definition. -/
def definition : Parser Stmt := do
  let span := (← advance).span
  let name ← expectName .functionName
  expect (.symbol .leftParen) .parameterList
  let parameters ← parameters ((← remaining) + 1) []
  return .define name parameters (← functionBody nested) span

/-- A loop. -/
def loop : Parser Stmt := do
  let _ ← advance
  let name ← expectName .loopVariable
  expect (.keyword .inWord) .loopIn
  let collection ← expression
  return .loop name collection (← block nested)

/-- A choice; another one may follow its `else` without braces. -/
def choice : Parser Stmt := do
  let _ ← advance
  let condition ← expression
  let yes ← block nested
  if (← peek) = .keyword .elseWord then
    let _ ← advance
    if (← peek) = .keyword .ifWord then
      return .choose condition yes [← nested]
    else
      return .choose condition yes (← block nested)
  else
    return .choose condition yes []

end Blocks

/-- A statement whose blocks are nested less than a number of times. -/
def statementWithin : Nat → Parser Stmt
  | 0 => failUnexpected
  | depth + 1 => do
    match ← peek with
    | .keyword .functionWord => definition (statementWithin depth)
    | .keyword .forWord => loop (statementWithin depth)
    | .keyword .ifWord => choice (statementWithin depth)
    | _ => simpleStatement

/-- A statement. -/
def statement : Parser Stmt := do
  statementWithin ((← remaining) + 1)

/-- Statements up to the end of the script; each reads at least one token. -/
def statements : Nat → Parser (List Stmt)
  | 0 => pure []
  | bound + 1 => do
    if (← peek) = .endOfScript then
      return []
    else
      let first ← statement
      let others ← statements bound
      return first :: others

end Parser

/-- The statements that tokens spell. -/
def statementsOfTokens (tokens : List Token) : Except Error (List Stmt) :=
  (Parser.statements (tokens.length + 1)).run' (.ofTokens tokens)

/-- The statements of a script. -/
def parseScript (source : String) : Except Error (List Stmt) := do
  statementsOfTokens (← (tokenize source).mapError Error.ofLexError)

end TriggerScript
