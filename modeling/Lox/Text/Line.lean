/-
This file cuts text into lines.
-/

import Lox.Text.Slice

namespace Lox.Text

/-- A line starts at a byte offset and keeps its line break. -/
structure Line where
  start : Nat
  chars : List Char
  deriving Repr

/-- The lines of a text that starts at an offset. A line break at the end of the text starts a
last line without characters. -/
def lines : Nat → List Char → List Line
  | start, [] => [⟨start, []⟩]
  | start, c :: cs =>
      let rest := lines (start + c.utf8Size) cs
      if c = '\n' then ⟨start, [c]⟩ :: rest
      else
        match rest with
        | [] => [⟨start, [c]⟩]
        | line :: more => ⟨start, c :: line.chars⟩ :: more

/-- The number of lines that start at or before an offset. The last of them holds it. -/
def lineNumber (cs : List Char) (offset : Nat) : Nat :=
  ((lines 0 cs).takeWhile fun line => line.start ≤ offset).length

end Lox.Text
