import TriggerScript.Text.Classes
import TriggerScript.Text.Letter
import TriggerScript.Number
import TriggerScript.Token

/-!
# Reading tokens

A cursor walks over the characters of a script. Each step skips blanks and comments and then reads one token, the longest
that begins there. A step that fails leaves the cursor where reading stopped, and the next step goes on from there; a
character that begins no token is not passed over.
-/

namespace TriggerScript

/-- Why a token could not be read. -/
inductive LexFault where
  /-- No token begins with this character. -/
  | unexpectedCharacter (c : Char)
  /-- A literal that is no number, or too large. -/
  | invalidInteger (literal : String)
  /-- A string literal without a closing quotation mark on its line. -/
  | unterminatedText
  /-- A backslash before a character that it does not escape. -/
  | invalidEscape (c : Char)
  /-- A block comment without an end. -/
  | unterminatedComment
  deriving DecidableEq, Repr

/-- The wording of a fault in a token. -/
def LexFault.message : LexFault → String
  | .unexpectedCharacter c => s!"Unexpected character '{c}'"
  | .invalidInteger literal => s!"Invalid integer literal '{literal}'"
  | .unterminatedText => "Unterminated string literal"
  | .invalidEscape c => s!"Unknown escape sequence '\\{c}'"
  | .unterminatedComment => "Unterminated comment"

/-- A fault in a token and where it stands. -/
structure LexError where
  /-- What is wrong. -/
  fault : LexFault
  /-- Where it is wrong. -/
  span : Span
  deriving DecidableEq, Repr

/-! ## Blanks and comments -/

/-- Where a scan over blanks and comments stands. -/
inductive GapState where
  /-- Outside of comments. -/
  | outside
  /-- In a comment that ends with its line. -/
  | line
  /-- In a comment that began after this many characters and ends with a star and a slash. -/
  | block (start : Nat)
  deriving DecidableEq, Repr

/-- What stands before the next token. -/
inductive Gap where
  /-- This many characters of blanks and whole comments. -/
  | closed (length : Nat)
  /-- A comment that begins after this many characters and never ends. -/
  | unterminated (start : Nat)
  deriving DecidableEq, Repr

/-- Measures the blanks and comments at the front of a text, after a number of characters already passed. -/
def gapFrom : GapState → Nat → List Char → Gap
  | .outside, passed, '/' :: '/' :: rest => gapFrom .line (passed + 2) rest
  | .outside, passed, '/' :: '*' :: rest => gapFrom (.block passed) (passed + 2) rest
  | .outside, passed, c :: rest => if Text.isBlank c then gapFrom .outside (passed + 1) rest else .closed passed
  | .line, passed, c :: rest => gapFrom (if c = '\n' then .outside else .line) (passed + 1) rest
  | .block _, passed, '*' :: '/' :: rest => gapFrom .outside (passed + 2) rest
  | .block start, passed, _ :: rest => gapFrom (.block start) (passed + 1) rest
  | .block start, _, [] => .unterminated start
  | _, passed, [] => .closed passed

/-- The blanks and comments at the front of a text. -/
def gap (cs : List Char) : Gap :=
  gapFrom .outside 0 cs

/-! ## Single tokens -/

/-- What stands at the front of a text: a token, or a fault between two of its characters, and how many characters were
read to find out. -/
structure Lexeme where
  /-- The number of characters read. -/
  length : Nat
  /-- The token, or the fault with the first and last of the characters it concerns. -/
  result : Except (LexFault × Nat × Nat) TokenKind

/-- Whether a character may begin a name. -/
def beginsName (c : Char) : Bool :=
  Text.isLetter c || c = '_'

/-- Whether a character may continue a name. -/
def continuesName (c : Char) : Bool :=
  Text.isLetter c || Text.isNumeral c || c = '_'

/-- The token that letters spell: a keyword or a name. -/
def TokenKind.ofWord (word : String) : TokenKind :=
  match Keyword.ofSpelling? word with
  | some found => .keyword found
  | none => .name word

/-- A name or keyword. -/
def nameLexeme (cs : List Char) : Lexeme :=
  let letters := cs.takeWhile continuesName
  { length := letters.length, result := .ok (.ofWord (String.ofList letters)) }

/-- The integer literal that `mark` and the digits after it begin. A letter in place of a digit is read as part of the
literal, and makes it invalid. -/
def integerLexeme (base : Nat) (mark cs : List Char) : Lexeme :=
  let digits := cs.takeWhile (Text.isDigit base)
  let literal := mark ++ digits
  let fail (literal : List Char) : Lexeme :=
    { length := literal.length, result := .error (.invalidInteger (String.ofList literal), 0, literal.length) }
  match cs.drop digits.length with
  | c :: _ =>
    if continuesName c then fail (literal ++ [c])
    else finish literal digits fail
  | [] => finish literal digits fail
where
  /-- A literal that no letter follows. -/
  finish (literal digits : List Char) (fail : List Char → Lexeme) : Lexeme :=
    match Text.readInt64? base digits with
    | some value => { length := literal.length, result := .ok (.integer value) }
    | none => fail literal

/-- The character that a backslash before another one stands for. -/
def escaped? : Char → Option Char
  | '"' => some '"'
  | '\\' => some '\\'
  | 'n' => some '\n'
  | 't' => some '\t'
  | _ => none

/-- The rest of a string literal, after this many characters and with the text read so far in reverse. -/
def textFrom : Nat → List Char → List Char → Lexeme
  | passed, value, '"' :: _ => { length := passed + 1, result := .ok (.text (String.ofList value.reverse)) }
  | passed, _, '\n' :: _ => unterminated (passed + 1)
  | passed, value, '\\' :: c :: rest =>
    match escaped? c with
    | some meant => textFrom (passed + 2) (meant :: value) rest
    | none => { length := passed + 2, result := .error (.invalidEscape c, passed, passed + 1) }
  | passed, _, ['\\'] => unterminated (passed + 1)
  | passed, value, c :: rest => textFrom (passed + 1) (c :: value) rest
  | passed, _, [] => unterminated passed
where
  /-- A string literal that ends after this many characters without a quotation mark. -/
  unterminated (length : Nat) : Lexeme :=
    { length, result := .error (.unterminatedText, 0, length) }

/-- The symbol at the front of a text; of two symbols the longer one. -/
def symbol? : List Char → Option Symbol
  | '=' :: '=' :: _ => some .equal
  | '=' :: '>' :: _ => some .arrow
  | '=' :: _ => some .assign
  | '!' :: '=' :: _ => some .notEqual
  | '!' :: _ => some .bang
  | '<' :: '=' :: _ => some .lessEqual
  | '<' :: _ => some .less
  | '>' :: '=' :: _ => some .greaterEqual
  | '>' :: _ => some .greater
  | '&' :: '&' :: _ => some .both
  | '|' :: '|' :: _ => some .either
  | '(' :: _ => some .leftParen
  | ')' :: _ => some .rightParen
  | '[' :: _ => some .leftBracket
  | ']' :: _ => some .rightBracket
  | '\x7b' :: _ => some .leftBrace
  | '\x7d' :: _ => some .rightBrace
  | ',' :: _ => some .comma
  | ':' :: _ => some .colon
  | '+' :: _ => some .plus
  | '-' :: _ => some .minus
  | '*' :: _ => some .star
  | '/' :: _ => some .slash
  | '%' :: _ => some .percent
  | _ => none

/-- The token at the front of a text that begins with neither a blank nor a comment. -/
def lexeme : List Char → Lexeme
  | [] => { length := 0, result := .ok .endOfScript }
  | c :: rest =>
    if c = '"' then textFrom 1 [] rest
    else if beginsName c then nameLexeme (c :: rest)
    else if Text.isDigit 10 c then
      match c, rest with
      | '0', 'x' :: digits => integerLexeme 16 ['0', 'x'] digits
      | '0', 'X' :: digits => integerLexeme 16 ['0', 'X'] digits
      | _, _ => integerLexeme 10 [] (c :: rest)
    else
      match symbol? (c :: rest) with
      | some sign => { length := sign.spelling.length, result := .ok (.symbol sign) }
      | none => { length := 0, result := .error (.unexpectedCharacter c, 0, 0) }

/-! ## The cursor -/

/-- A place in a script and the characters that follow it. -/
structure Cursor where
  /-- The characters still to be read. -/
  rest : List Char
  /-- Byte offset of the next character. -/
  offset : Nat := 0
  /-- Line of the next character. -/
  line : Nat := 1
  /-- Column of the next character. -/
  column : Nat := 1
  deriving DecidableEq, Repr

namespace Cursor

/-- The cursor at the beginning of a script. -/
def atStart (source : String) : Cursor :=
  { rest := source.toList }

/-- The cursor after the next character, if there is one. -/
def advance (cursor : Cursor) : Cursor :=
  match cursor.rest with
  | [] => cursor
  | c :: rest =>
    { rest
      offset := cursor.offset + c.utf8Size
      line := if c = '\n' then cursor.line + 1 else cursor.line
      column := if c = '\n' then 1 else cursor.column + 1 }

/-- The cursor after a number of characters. -/
def skip : Nat → Cursor → Cursor
  | 0, cursor => cursor
  | n + 1, cursor => skip n cursor.advance

/-- The text from one cursor to a later one. -/
def spanTo (first last : Cursor) : Span :=
  { start := first.offset, stop := last.offset, line := first.line, column := first.column }

/-- The next token or fault, and the cursor behind what was read. -/
def next (cursor : Cursor) : Except LexError Token × Cursor :=
  match gap cursor.rest with
  | .unterminated start =>
    let stop := cursor.skip cursor.rest.length
    (.error { fault := .unterminatedComment, span := (cursor.skip start).spanTo stop }, stop)
  | .closed length =>
    let first := cursor.skip length
    let found := lexeme first.rest
    let last := first.skip found.length
    match found.result with
    | .ok kind => (.ok { kind, span := first.spanTo last }, last)
    | .error (fault, a, b) => (.error { fault, span := (first.skip a).spanTo (first.skip b) }, last)

/-- Up to a number of tokens and faults from a cursor on; nothing follows the end of the script. -/
def items : Nat → Cursor → List (Except LexError Token)
  | 0, _ => []
  | n + 1, cursor =>
    match cursor.next with
    | (.ok token, after) => .ok token :: if token.kind = .endOfScript then [] else items n after
    | (.error error, after) => .error error :: items n after

/-- Up to a number of tokens from a cursor on, the end of the script included, or the first fault. -/
def tokens : Nat → Cursor → Except LexError (List Token)
  | 0, _ => .ok []
  | n + 1, cursor =>
    match cursor.next with
    | (.ok token, after) => if token.kind = .endOfScript then .ok [token] else (token :: ·) <$> tokens n after
    | (.error error, _) => .error error

end Cursor

/-- The tokens of a script. Each of them but the last reads at least one character, so there are at most as many as
characters, and the end of the script. -/
def tokenize (source : String) : Except LexError (List Token) :=
  (Cursor.atStart source).tokens (source.length + 1)

/-- The first tokens and faults of a script, at most a given number. -/
def tokenItems (limit : Nat) (source : String) : List (Except LexError Token) :=
  (Cursor.atStart source).items limit

end TriggerScript
