import TriggerScript.Token.Stream

/-!
# Reading expressions

Connectives bind least, then comparisons, sums, products, signs and indices. Each level reads its operands by the next one,
and what stands inside brackets by the first. A nested expression stands behind at least one token of its own, so the
number of tokens bounds the nesting.
-/

namespace TriggerScript

namespace Parser

/-- Joins two operands where the first stands. -/
def joinAt (build : Mark → Expr → Expr → Expr) (left right : Expr) : Expr :=
  build { span := left.span } left right

/-- The operator of a disjunction. -/
def disjunctionOp? : TokenKind → Option (Expr → Expr → Expr)
  | .symbol .either => some (joinAt fun mark left right => .logical mark .or (some left) right)
  | _ => none

/-- The operator of a conjunction. -/
def conjunctionOp? : TokenKind → Option (Expr → Expr → Expr)
  | .symbol .both => some (joinAt fun mark left right => .logical mark .and (some left) right)
  | _ => none

/-- The operator of a comparison. -/
def comparisonOp? : TokenKind → Option ComparisonOp
  | .symbol .equal => some .equal
  | .symbol .notEqual => some .notEqual
  | .symbol .less => some .less
  | .symbol .lessEqual => some .lessEqual
  | .symbol .greater => some .greater
  | .symbol .greaterEqual => some .greaterEqual
  | _ => none

/-- The operator of a sum. -/
def sumOp? : TokenKind → Option (Expr → Expr → Expr)
  | .symbol .plus => some (joinAt fun mark left right => .arithmetic mark .add left right)
  | .symbol .minus => some (joinAt fun mark left right => .arithmetic mark .subtract left right)
  | _ => none

/-- The operator of a product. -/
def productOp? : TokenKind → Option (Expr → Expr → Expr)
  | .symbol .star => some (joinAt fun mark left right => .arithmetic mark .multiply left right)
  | .symbol .slash => some (joinAt fun mark left right => .arithmetic mark .divide left right)
  | .symbol .percent => some (joinAt fun mark left right => .arithmetic mark .modulus left right)
  | _ => none

section Levels

variable (nested : Parser Expr)

/-- A list of values up to a closing symbol. -/
def valuesUntil (closing : Symbol) (unclosed : Expectation) (place : Place) : Parser (List Expr) := do
  entriesUntil closing unclosed (do expectValue place (← nested)) ((← remaining) + 1)

/-- A key of a dictionary and its value. -/
def entry : Parser (Expr × Expr) := do
  let key ← expectValue .dictionaryKey (← nested)
  expect (.symbol .colon) .keyColon
  let value ← expectValue .dictionaryValue (← nested)
  return (key, value)

/-- What an expression can begin with. -/
def primary : Parser Expr := do
  let token ← current
  let mark : Mark := { span := token.span }
  match token.kind with
  | .integer value =>
    let _ ← advance
    return .integer mark value
  | .text value =>
    let _ ← advance
    return .text mark value
  | .keyword .trueWord =>
    let _ ← advance
    return .boolean mark true
  | .keyword .falseWord =>
    let _ ← advance
    return .boolean mark false
  | .name word =>
    let _ ← advance
    if (← peek) = .symbol .leftParen then
      let _ ← advance
      return .call mark word (← valuesUntil nested .rightParen .closingParen .argument)
    else
      return .var mark word
  | .symbol .leftParen =>
    let _ ← advance
    let inner ← nested
    expect (.symbol .rightParen) .closingParen
    return inner.asUnit
  | .symbol .leftBracket =>
    let _ ← advance
    return .array mark (← valuesUntil nested .rightBracket .closingBracket .arrayEntry)
  | .symbol .leftBrace =>
    let _ ← advance
    return .dictionary mark (← entriesUntil .rightBrace .closingBrace (entry nested) ((← remaining) + 1))
  | .keyword .returnWord =>
    let _ ← advance
    return .returned mark (← expectValue .returnValue (← nested))
  | _ => failUnexpected

/-- Whether an expression may be indexed: a name or an entry, and not in parentheses. -/
def isIndexable (e : Expr) : Bool :=
  match e with
  | .var .. | .indexed .. => !e.isUnit
  | _ => false

/-- The indices after an expression; each stands in brackets. -/
def indices : Nat → Expr → Parser Expr
  | 0, base => pure base
  | bound + 1, base => do
    if (← peek) = .symbol .leftBracket then
      if isIndexable base then
        let _ ← advance
        let index ← expectValue .index (← nested)
        expect (.symbol .rightBracket) .closingBracket
        indices bound (.indexed { span := base.span } base index)
      else
        failExpecting (.noIndex base.kindName) (some base)
    else
      pure base

/-- An expression with its indices. -/
def indexed : Parser Expr := do
  let base ← primary nested
  indices nested (← remaining) base

/-- An expression with its minus signs. A sign before a literal makes it negative, any other is a difference from zero. -/
def signs : Nat → Parser Expr
  | 0 => indexed nested
  | bound + 1 => do
    let token ← current
    if token.kind = .symbol .minus then
      let _ ← advance
      let mark : Mark := { span := token.span }
      match ← peek with
      | .integer value =>
        let _ ← advance
        if value = Int64.minValue then fail .integerOutOfRange token.span none
        else return .integer mark (-value)
      | _ =>
        let operand ← signs bound
        return .arithmetic mark .subtract (.integer mark 0) operand
    else
      indexed nested

/-- An expression with its minus signs, as many as there are. -/
def signed : Parser Expr := do
  signs nested (← remaining)

/-- Products, quotients and remainders. -/
def product : Parser Expr :=
  chain (signed nested) productOp?

/-- Sums and differences. -/
def sum : Parser Expr :=
  chain (product nested) sumOp?

/-- At most one comparison. -/
def comparison : Parser Expr := do
  let left ← sum nested
  match comparisonOp? (← peek) with
  | none => return left
  | some op =>
    let _ ← advance
    let right ← sum nested
    return .comparison { span := left.span } op left right

/-- Negations. -/
def negations : Nat → Parser Expr
  | 0 => comparison nested
  | bound + 1 => do
    let token ← current
    if token.kind = .symbol .bang then
      let _ ← advance
      let operand ← negations bound
      return .logical { span := token.span } .not none operand
    else
      comparison nested

/-- Negations, as many as there are. -/
def negation : Parser Expr := do
  negations nested (← remaining)

/-- Conjunctions. -/
def conjunction : Parser Expr :=
  chain (negation nested) conjunctionOp?

/-- Disjunctions. -/
def disjunction : Parser Expr :=
  chain (conjunction nested) disjunctionOp?

end Levels

/-- An expression whose brackets are nested less than a number of times. -/
def expressionWithin : Nat → Parser Expr
  | 0 => failUnexpected
  | depth + 1 => disjunction (expressionWithin depth)

/-- An expression. -/
def expression : Parser Expr := do
  expressionWithin ((← remaining) + 1)

end Parser

/-- Reads a whole text as one expression. -/
def Expr.parse (source : String) : Except Error Expr := do
  let tokens ← (tokenize source).mapError Error.ofLexError
  let (e, stream) ← Parser.expression (.ofTokens tokens)
  if stream.current.kind = .endOfScript then
    return e
  else
    throw (.parse (.expected .endOfExpression stream.current.kind) stream.current.span none)

end TriggerScript
