import TriggerScript.Text.Quoted

/-!
# Tokens

The words of a script: names, literals, keywords and symbols, each with the place it was read from. A place is a span of the
text. Offsets count bytes of the UTF-8 text; lines and columns count from one, columns in characters.
-/

namespace TriggerScript

/-- A stretch of a script text; all zeros where there is none. -/
structure Span where
  /-- Byte offset of the first character. -/
  start : Nat := 0
  /-- Byte offset after the last character. -/
  stop : Nat := 0
  /-- Line of the first character. -/
  line : Nat := 0
  /-- Column of the first character. -/
  column : Nat := 0
  deriving DecidableEq, Repr, Inhabited

/-- The words that are not names. -/
inductive Keyword where
  | functionWord
  | forWord
  | inWord
  | ifWord
  | elseWord
  | returnWord
  | trueWord
  | falseWord
  deriving DecidableEq, Repr

/-- How a keyword is spelled. -/
def Keyword.spelling : Keyword → String
  | .functionWord => "function"
  | .forWord => "for"
  | .inWord => "in"
  | .ifWord => "if"
  | .elseWord => "else"
  | .returnWord => "return"
  | .trueWord => "true"
  | .falseWord => "false"

/-- Every keyword. -/
def Keyword.all : List Keyword :=
  [.functionWord, .forWord, .inWord, .ifWord, .elseWord, .returnWord, .trueWord, .falseWord]

/-- The keyword with a spelling. -/
def Keyword.ofSpelling? (word : String) : Option Keyword :=
  Keyword.all.find? (·.spelling = word)

/-- Operators and delimiters. -/
inductive Symbol where
  | assign
  | arrow
  | plus
  | minus
  | star
  | slash
  | percent
  | equal
  | notEqual
  | less
  | lessEqual
  | greater
  | greaterEqual
  | both
  | either
  | bang
  | colon
  | comma
  | leftParen
  | rightParen
  | leftBracket
  | rightBracket
  | leftBrace
  | rightBrace
  deriving DecidableEq, Repr

/-- How a symbol is spelled. -/
def Symbol.spelling : Symbol → String
  | .assign => "="
  | .arrow => "=>"
  | .plus => "+"
  | .minus => "-"
  | .star => "*"
  | .slash => "/"
  | .percent => "%"
  | .equal => "=="
  | .notEqual => "!="
  | .less => "<"
  | .lessEqual => "<="
  | .greater => ">"
  | .greaterEqual => ">="
  | .both => "&&"
  | .either => "||"
  | .bang => "!"
  | .colon => ":"
  | .comma => ","
  | .leftParen => "("
  | .rightParen => ")"
  | .leftBracket => "["
  | .rightBracket => "]"
  | .leftBrace => "\x7b"
  | .rightBrace => "\x7d"

/-- What a token is. -/
inductive TokenKind where
  /-- A name. -/
  | name (word : String)
  /-- An integer literal. -/
  | integer (value : Int64)
  /-- A string literal, with its escapes resolved. -/
  | text (value : String)
  /-- A keyword. -/
  | keyword (word : Keyword)
  /-- An operator or delimiter. -/
  | symbol (sign : Symbol)
  /-- The end of the script. -/
  | endOfScript
  deriving DecidableEq, Repr

/-- How a token is named in a message. -/
def TokenKind.describe : TokenKind → String
  | .name word => s!"identifier '{word}'"
  | .integer value => s!"integer {value.toInt}"
  | .text value => "string " ++ Text.quoted value
  | .keyword word => s!"'{word.spelling}'"
  | .symbol sign => s!"'{sign.spelling}'"
  | .endOfScript => "end of script"

/-- A token and where it was read. -/
structure Token where
  /-- What the token is. -/
  kind : TokenKind
  /-- The text it was read from. -/
  span : Span
  deriving DecidableEq, Repr

end TriggerScript
