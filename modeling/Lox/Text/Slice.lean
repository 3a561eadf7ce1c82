/-
This file addresses text by byte offsets in its UTF-8 encoding.
-/

import Lox.Span

namespace Lox.Text

/-- The number of bytes that the characters take. -/
def byteLength : List Char → Nat
  | [] => 0
  | c :: cs => c.utf8Size + byteLength cs

@[simp] theorem byteLength_nil : byteLength [] = 0 := rfl

@[simp] theorem byteLength_cons (c : Char) (cs : List Char) :
    byteLength (c :: cs) = c.utf8Size + byteLength cs := rfl

/-- The bytes of two texts add up. -/
@[simp] theorem byteLength_append (first second : List Char) :
    byteLength (first ++ second) = byteLength first + byteLength second := by
  induction first with
  | nil => simp
  | cons c cs ih => simp [ih, Nat.add_assoc]

/-- Only the empty text takes no bytes. -/
theorem byteLength_eq_zero {cs : List Char} : byteLength cs = 0 ↔ cs = [] := by
  cases cs with
  | nil => simp
  | cons c cs =>
      have positive := c.utf8Size_pos
      simp only [byteLength_cons, reduceCtorEq, iff_false]
      omega

/-- The text splits at a byte offset, unless the offset falls inside a character or beyond
the end. -/
def splitAt? : Nat → List Char → Option (List Char × List Char)
  | 0, cs => some ([], cs)
  | _ + 1, [] => none
  | offset + 1, c :: cs =>
      if c.utf8Size ≤ offset + 1 then
        (splitAt? (offset + 1 - c.utf8Size) cs).map fun parts => (c :: parts.1, parts.2)
      else none

/-- A text splits behind its first part. -/
theorem splitAt?_append (first second : List Char) :
    splitAt? (byteLength first) (first ++ second) = some (first, second) := by
  induction first with
  | nil => cases second <;> rfl
  | cons c cs ih =>
      have positive := c.utf8Size_pos
      obtain ⟨size, same⟩ : ∃ size, c.utf8Size = size + 1 := ⟨c.utf8Size - 1, by omega⟩
      have total : byteLength (c :: cs) = (size + byteLength cs) + 1 := by
        rw [byteLength_cons, same]; omega
      rw [total, List.cons_append, splitAt?, same, if_pos (by omega)]
      rw [show size + byteLength cs + 1 - (size + 1) = byteLength cs by omega, ih]
      rfl

/-- The parts of a split give the text back, and the first one ends at the offset. -/
theorem append_of_splitAt? {offset : Nat} {cs first second : List Char}
    (split : splitAt? offset cs = some (first, second)) :
    first ++ second = cs ∧ byteLength first = offset := by
  induction cs generalizing offset first second with
  | nil =>
      cases offset with
      | zero => cases split; simp
      | succ offset => simp [splitAt?] at split
  | cons c cs ih =>
      cases offset with
      | zero => cases split; simp
      | succ offset =>
          rw [splitAt?] at split
          by_cases fits : c.utf8Size ≤ offset + 1
          · rw [if_pos fits, Option.map_eq_some_iff] at split
            obtain ⟨⟨left, right⟩, inner, same⟩ := split
            cases same
            have parts := ih inner
            simp only [List.cons_append, parts.1, byteLength_cons, parts.2, true_and]
            omega
          · rw [if_neg fits] at split
            cases split

/-- The characters of a span, if both of its ends fall between characters. -/
def slice? (cs : List Char) (span : Span) : Option (List Char) := do
  if span.stop < span.start then none
  let (_, rest) ← splitAt? span.start cs
  let (middle, _) ← splitAt? (span.stop - span.start) rest
  return middle

/-- The slice of a span between two parts is what stands there. -/
theorem slice?_append (before middle after : List Char) :
    slice? (before ++ middle ++ after)
      ⟨byteLength before, byteLength before + byteLength middle⟩ = some middle := by
  simp [slice?, List.append_assoc, splitAt?_append]

end Lox.Text
