/-
This file turns pieces into tokens and errors. Characters that form no token are reported
together when they are adjacent.
-/

import Lox.Error
import Lox.Token.Piece

namespace Lox.Token

/-- The lexer gives a lexeme or an error. -/
inductive Item where
  | lexeme (lexeme : Lexeme)
  | error (error : Located Error)
  deriving Repr

def Item.lexeme? : Item → Option Lexeme
  | .lexeme given => some given
  | .error _ => none

def Item.error? : Item → Option (Located Error)
  | .lexeme _ => none
  | .error given => some given

/-- The error for a run of characters that form no token. -/
def unexpected (text : List Char) (span : Span) : Item :=
  .error ⟨.unexpectedInput (String.ofList text), span⟩

mutual

/-- The items of a sequence of pieces. -/
def items : List (Located Piece) → List Item
  | [] => []
  | ⟨⟨kind, text⟩, span⟩ :: rest =>
      match kind with
      | .blank => items rest
      | .token token => .lexeme ⟨token, String.ofList text, span⟩ :: items rest
      | .invalid => itemsAfter text span rest
      | .unterminated => .error ⟨.unterminatedString, span⟩ :: items rest

/-- The items from a run of invalid characters on. An adjacent error joins the run, and the
first piece that does not join it is a lexeme, even if it is an error. -/
def itemsAfter (run : List Char) (span : Span) : List (Located Piece) → List Item
  | [] => [unexpected run span]
  | ⟨⟨kind, text⟩, next⟩ :: rest =>
      match kind with
      | .blank => itemsAfter run span rest
      | .token token =>
          unexpected run span :: .lexeme ⟨token, String.ofList text, next⟩ :: items rest
      | .invalid | .unterminated =>
          if next.start = span.stop then itemsAfter (run ++ text) (span.to next) rest
          else
            unexpected run span :: .lexeme ⟨.invalid, String.ofList text, next⟩ :: items rest

end

/-- The tokens and the errors of a text, in order. -/
def lex (text : String) : List Item := items (pieces 0 text.toList)

end Lox.Token
