/-
This file looks characters up in tables of ranges.
-/

namespace Lox.Text

/-- A range holds its first and its last code point. -/
abbrev CodeRange := Nat × Nat

/-- A table holds a character when one of its ranges does. -/
def inRanges (ranges : List CodeRange) (c : Char) : Bool :=
  ranges.any fun range => range.1 ≤ c.toNat && c.toNat ≤ range.2

end Lox.Text
