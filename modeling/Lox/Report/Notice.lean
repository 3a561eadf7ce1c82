/-
This file says on one line what is wrong and where.
-/

import Lox.Error
import Lox.Text.Line

namespace Lox.Report

/-- A source is a named text. -/
structure Source where
  name : String
  text : String

def Source.chars (source : Source) : List Char := source.text.toList

/-- A notice gives the line of an error, its context and its message. -/
structure Notice where
  line : Nat
  context : String
  message : String
  deriving DecidableEq, Repr

/-- The context is the text of a span, or the end of the source. A span that has no text has
no context. -/
def contextOf (source : Source) (span : Span) : String :=
  if source.text.utf8ByteSize ≤ span.start then " at end"
  else
    match Text.slice? source.chars span with
    | none | some [] => ""
    | some text => " at '" ++ String.ofList text ++ "'"

def Notice.of (source : Source) (error : Located Error) : Notice where
  line := Text.lineNumber source.chars error.span.start
  context := contextOf source error.span
  message := error.item.message

def Notice.text (notice : Notice) : String :=
  s!"[line {notice.line}] Error{notice.context}: {notice.message}\n"

end Lox.Report
