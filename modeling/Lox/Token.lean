/-
This file lists the tokens of the language and their fixed spellings.
-/

import Lox.Span

namespace Lox

/-- A symbol has one spelling: it is a mark, an operator or a keyword. -/
inductive Symbol where
  | leftParen
  | rightParen
  | leftBrace
  | rightBrace
  | comma
  | semicolon
  | plus
  | minus
  | star
  | slash
  | bang
  | bangEqual
  | equal
  | equalEqual
  | greater
  | greaterEqual
  | less
  | lessEqual
  | and
  | else
  | false
  | for
  | fun
  | if
  | nil
  | or
  | print
  | return
  | true
  | var
  | while
  deriving DecidableEq, Repr

def Symbol.text : Symbol → String
  | .leftParen => "("
  | .rightParen => ")"
  | .leftBrace => "\x7b"
  | .rightBrace => "\x7d"
  | .comma => ","
  | .semicolon => ";"
  | .plus => "+"
  | .minus => "-"
  | .star => "*"
  | .slash => "/"
  | .bang => "!"
  | .bangEqual => "!="
  | .equal => "="
  | .equalEqual => "=="
  | .greater => ">"
  | .greaterEqual => ">="
  | .less => "<"
  | .lessEqual => "<="
  | .and => "and"
  | .else => "else"
  | .false => "false"
  | .for => "for"
  | .fun => "fun"
  | .if => "if"
  | .nil => "nil"
  | .or => "or"
  | .print => "print"
  | .return => "return"
  | .true => "true"
  | .var => "var"
  | .while => "while"

/-- The symbols that are spelled like identifiers. -/
def Symbol.keywords : List Symbol :=
  [.and, .else, .false, .for, .fun, .if, .nil, .or, .print, .return, .true, .var, .while]

/-- A word is a keyword if it is spelled exactly like one. -/
def Symbol.ofWord? (word : String) : Option Symbol :=
  keywords.find? fun symbol => symbol.text = word

/-- A token is a symbol, or it carries a value of its own. -/
inductive Token where
  | symbol (symbol : Symbol)
  | identifier (name : String)
  | string (content : String)
  | number (value : Float)
  /-- Input that forms no token, met where the lexer was looking for the end of an error. -/
  | invalid
  deriving Repr

/-- A lexeme is a token with its spelling and its place. -/
structure Lexeme where
  token : Token
  text : String
  span : Span
  deriving Repr

/-- The symbol of a lexeme whose token is one. -/
def Lexeme.symbol? (lexeme : Lexeme) : Option Symbol :=
  match lexeme.token with
  | .symbol symbol => some symbol
  | .identifier _ | .string _ | .number _ | .invalid => none

end Lox
