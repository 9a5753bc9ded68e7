import GuardedRepl.Source.Span

/-!
# Tokens

The words of the snippet language.  A reserved word is never an identifier.  A list of tokens ends
with a token for the end of the source.
-/

namespace GuardedRepl
namespace Source

/-- The operators and brackets. -/
inductive Punct where
  | andAnd
  | orOr
  | equal
  | notEqual
  | lessEqual
  | greaterEqual
  | plusAssign
  | minusAssign
  | timesAssign
  | divAssign
  | remAssign
  | increment
  | decrement
  | openParen
  | closeParen
  | openBrace
  | closeBrace
  | openBracket
  | closeBracket
  | semicolon
  | comma
  | dot
  | plus
  | minus
  | times
  | div
  | rem
  | assign
  | less
  | greater
  | bang
  | question
  | colon
deriving DecidableEq, Repr

namespace Punct

/-- How an operator is written. -/
def text : Punct → String
  | andAnd => "&&"
  | orOr => "||"
  | equal => "=="
  | notEqual => "!="
  | lessEqual => "<="
  | greaterEqual => ">="
  | plusAssign => "+="
  | minusAssign => "-="
  | timesAssign => "*="
  | divAssign => "/="
  | remAssign => "%="
  | increment => "++"
  | decrement => "--"
  | openParen => "("
  | closeParen => ")"
  | openBrace => "\x7b"
  | closeBrace => "\x7d"
  | openBracket => "["
  | closeBracket => "]"
  | semicolon => ";"
  | comma => ","
  | dot => "."
  | plus => "+"
  | minus => "-"
  | times => "*"
  | div => "/"
  | rem => "%"
  | assign => "="
  | less => "<"
  | greater => ">"
  | bang => "!"
  | question => "?"
  | colon => ":"

/-- All operators, the longer ones first. -/
def all : List Punct :=
  [andAnd, orOr, equal, notEqual, lessEqual, greaterEqual, plusAssign, minusAssign, timesAssign,
    divAssign, remAssign, increment, decrement, openParen, closeParen, openBrace, closeBrace,
    openBracket, closeBracket, semicolon, comma, dot, plus, minus, times, div, rem, assign, less,
    greater, bang, question, colon]

/-- The longest operator that a text begins with. -/
def longest? (cs : List Char) : Option Punct :=
  all.find? fun p => p.text.toList.isPrefixOf cs

end Punct

/-- The reserved words. -/
inductive Keyword where
  | ifWord
  | elseWord
  | whileWord
  | forWord
  | newWord
  | importWord
  | breakWord
  | continueWord
  | trueWord
  | falseWord
  | nullWord
  | returnWord
  | classWord
  | doWord
  | switchWord
deriving DecidableEq, Repr

namespace Keyword

/-- How a reserved word is written. -/
def text : Keyword → String
  | ifWord => "if"
  | elseWord => "else"
  | whileWord => "while"
  | forWord => "for"
  | newWord => "new"
  | importWord => "import"
  | breakWord => "break"
  | continueWord => "continue"
  | trueWord => "true"
  | falseWord => "false"
  | nullWord => "null"
  | returnWord => "return"
  | classWord => "class"
  | doWord => "do"
  | switchWord => "switch"

/-- All reserved words. -/
def all : List Keyword :=
  [ifWord, elseWord, whileWord, forWord, newWord, importWord, breakWord, continueWord, trueWord,
    falseWord, nullWord, returnWord, classWord, doWord, switchWord]

/-- The reserved word that is written like this. -/
def ofText? (s : String) : Option Keyword :=
  all.find? fun k => k.text = s

end Keyword

/-- What a token is. -/
inductive TokenKind where
  | int (value : Int64)
  /-- A string or character literal, by its value. -/
  | str (value : String)
  /-- A name that is not reserved. -/
  | ident (name : String)
  | keyword (word : Keyword)
  | punct (p : Punct)
  /-- The end of the source. -/
  | endOfSource
deriving DecidableEq, Repr

/-- A word of the source and where it stands. -/
structure Token where
  kind : TokenKind
  span : Span
deriving DecidableEq, Repr

/-- The token for a word of letters and digits. -/
def TokenKind.ofWord (s : String) : TokenKind :=
  match Keyword.ofText? s with
  | some k => .keyword k
  | none => .ident s

end Source
end GuardedRepl
