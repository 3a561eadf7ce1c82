/-
This file gives the byte ranges that tie every token, tree node and error to its text.
-/

namespace Lox

/-- A span is a half-open range of byte offsets. -/
structure Span where
  start : Nat
  stop : Nat
  deriving DecidableEq, Repr, Inhabited

/-- The span from the start of one span to the end of another. -/
def Span.to (first last : Span) : Span := ⟨first.start, last.stop⟩

/-- The empty span at an offset. -/
def Span.empty (offset : Nat) : Span := ⟨offset, offset⟩

/-- A located item carries the span of the text it is about. -/
structure Located (α : Type) where
  item : α
  span : Span
  deriving DecidableEq, Repr, Inhabited

end Lox
