import TriggerScript.Error

/-!
# Token streams

What a parser reads: the tokens still ahead, and a token for the end of the script that is never used up.
-/

namespace TriggerScript

/-- The tokens ahead and the place where they end. -/
structure TokenStream where
  /-- The tokens still to be read. -/
  tokens : List Token
  /-- Where the end of the script is reported if no token says so. -/
  ending : Span
  deriving DecidableEq, Repr

/-- The stream of a list of tokens; it ends where the last of them ends. -/
def TokenStream.ofTokens (tokens : List Token) : TokenStream :=
  let last := (tokens.getLast?.map (·.span)).getD {}
  { tokens, ending := { last with start := last.stop } }

/-- The token that comes next. -/
def TokenStream.current (stream : TokenStream) : Token :=
  stream.tokens.headD { kind := .endOfScript, span := stream.ending }

/-- The stream behind the next token. -/
def TokenStream.advance (stream : TokenStream) : TokenStream :=
  { stream with tokens := stream.tokens.tail }

/-- A reader of tokens: it gives a result and the stream behind what it read, or an error. -/
abbrev Parser := StateT TokenStream (Except Error)

namespace Parser

/-- The token that comes next. -/
def current : Parser Token := fun stream =>
  .ok (stream.current, stream)

/-- What comes next. -/
def peek : Parser TokenKind := fun stream =>
  .ok (stream.current.kind, stream)

/-- Reads the next token, whatever it is. -/
def advance : Parser Token := fun stream =>
  .ok (stream.current, stream.advance)

/-- The number of tokens ahead, which bounds every repetition. -/
def remaining : Parser Nat := fun stream =>
  .ok (stream.tokens.length, stream)

/-- Fails because the next token is not what should stand there. -/
def failExpecting {α : Type} (what : Expectation) (cause? : Option Expr) : Parser α := fun stream =>
  .error (.parse (.expected what stream.current.kind) stream.current.span cause?)

/-- Fails because no expression begins with the next token. -/
def failUnexpected {α : Type} : Parser α := fun stream =>
  .error (.parse (.unexpected stream.current.kind) stream.current.span none)

/-- Fails with an error of form. -/
def fail {α : Type} (fault : ParseFault) (span : Span) (cause? : Option Expr) : Parser α := fun _ =>
  .error (.parse fault span cause?)

/-- Reads a token that has to come next. -/
def expect (kind : TokenKind) (what : Expectation) : Parser Unit := do
  if (← peek) = kind then
    let _ ← advance
  else
    failExpecting what none

/-- Reads a name that has to come next. -/
def expectName (what : Expectation) : Parser String := do
  match ← peek with
  | .name word =>
    let _ ← advance
    return word
  | _ => failExpecting what none

/-- An expression that has to be a value in its place. -/
def expectValue (place : Place) (e : Expr) : Parser Expr :=
  if e.isValue then pure e else fail (.invalid place) e.span (some e)

/-- Entries between commas up to a closing symbol, which is read too; each entry reads at least one token. -/
def entriesUntil {α : Type} (closing : Symbol) (unclosed : Expectation) (entry : Parser α) : Nat → Parser (List α)
  | 0 => failExpecting unclosed none
  | bound + 1 => do
    match ← closes with
    | true => return []
    | false =>
      let first ← entry
      match ← closes with
      | true => return [first]
      | false =>
        expect (.symbol .comma) .entryComma
        let others ← entriesUntil closing unclosed entry bound
        return first :: others
where
  /-- Whether the closing symbol comes next, which is then read; the end of the script is an error. -/
  closes : Parser Bool := do
    let next ← peek
    if next = .symbol closing then
      let _ ← advance
      return true
    else if next = .endOfScript then
      failExpecting unclosed none
    else
      return false

/-- Operands joined by operators from left to right; each operator is a token. -/
def chain (operand : Parser Expr) (join? : TokenKind → Option (Expr → Expr → Expr)) : Parser Expr := do
  let first ← operand
  continueChain (← remaining) first
where
  /-- The operators and operands after those already joined. -/
  continueChain : Nat → Expr → Parser Expr
    | 0, joined => pure joined
    | bound + 1, joined => do
      match join? (← peek) with
      | none => pure joined
      | some join =>
        let _ ← advance
        let next ← operand
        continueChain bound (join joined next)

end Parser

end TriggerScript
