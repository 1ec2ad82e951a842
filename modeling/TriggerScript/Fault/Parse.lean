import TriggerScript.Token.Lexer

/-!
# Faults of form

Why a text is not a script, and how it is said.
-/

namespace TriggerScript

/-- What should have stood where another token stands. -/
inductive Expectation where
  | openingBrace
  | closingBrace
  | closingBracket
  | closingParen
  | functionName
  | parameterList
  | parameterName
  | parameterComma
  | loopVariable
  | loopIn
  | entryComma
  | keyColon
  | endOfExpression
  /-- Anything but an index of an expression of this kind. -/
  | noIndex (kind : String)
  deriving DecidableEq, Repr

/-- The wording of an expectation. -/
def Expectation.message : Expectation → String
  | .openingBrace => "Expecting opening brace"
  | .closingBrace => "Expecting closing brace"
  | .closingBracket => "Expecting closing bracket"
  | .closingParen => "Expecting closing parenthesis"
  | .functionName => "Expecting function name"
  | .parameterList => "Expecting opening parenthesis after function name"
  | .parameterName => "Expecting parameter name"
  | .parameterComma => "Expecting comma between parameters"
  | .loopVariable => "Expecting loop variable"
  | .loopIn => "Expecting 'in' after loop variable"
  | .entryComma => "Expecting comma between entries"
  | .keyColon => "Expecting colon following key expression"
  | .endOfExpression => "Unexpected input after expression"
  | .noIndex kind => "Cannot index " ++ kind

/-- A place that not every expression can take. -/
inductive Place where
  | assignmentTarget
  | index
  | argument
  | arrayEntry
  | dictionaryKey
  | dictionaryValue
  | returnValue
  deriving DecidableEq, Repr

/-- The name of a place in messages. -/
def Place.name : Place → String
  | .assignmentTarget => "assignment target"
  | .index => "index"
  | .argument => "argument"
  | .arrayEntry => "array entry"
  | .dictionaryKey => "dictionary key"
  | .dictionaryValue => "dictionary value"
  | .returnValue => "return value"

/-- Why a text is not a script. -/
inductive ParseFault where
  /-- A token cannot be read. -/
  | token (fault : LexFault)
  /-- Another token stands where one is expected. -/
  | expected (what : Expectation) (found : TokenKind)
  /-- No expression begins with this token. -/
  | unexpected (found : TokenKind)
  /-- An expression stands in a place it cannot take. -/
  | invalid (place : Place)
  /-- Two parameters have one name. -/
  | duplicateParameter (name : String)
  /-- A parameter without a default follows one with a default. -/
  | missingDefault (name : String)
  /-- A negated literal is too large. -/
  | integerOutOfRange
  deriving DecidableEq, Repr

/-- The wording of a fault of form. -/
def ParseFault.message : ParseFault → String
  | .token fault => fault.message
  | .expected what found => what.message ++ ", found " ++ found.describe
  | .unexpected found => "Unexpected " ++ found.describe
  | .invalid place => "Invalid " ++ place.name
  | .duplicateParameter name => "Duplicate parameter name: " ++ name
  | .missingDefault name => "Parameter " ++ name ++ " must have a default value"
  | .integerOutOfRange => "Integer literal out of range"

end TriggerScript
