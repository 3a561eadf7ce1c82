import Lox.Report.Notice

namespace Lox.Text

/-- The characters of a text take the bytes of the text. -/
theorem byteLength_ofList (cs : List Char) : byteLength cs = (String.ofList cs).utf8ByteSize := by
  induction cs with
  | nil => rfl
  | cons c cs ih =>
      have split : String.ofList (c :: cs) = String.singleton c ++ String.ofList cs := by
        rw [String.singleton_eq_ofList, ← String.ofList_append]
        rfl
      rw [byteLength_cons, ih, split, String.utf8ByteSize_append, String.utf8ByteSize_singleton]

/-- The bytes of the characters of a string are the bytes of its encoding. -/
@[simp] theorem byteLength_toList (text : String) : byteLength text.toList = text.utf8ByteSize := by
  rw [byteLength_ofList, String.ofList_toList]

/-- An offset falls between two characters of a text, or at one of its ends. -/
def Boundary (text : List Char) (offset : Nat) : Prop :=
  ∃ before after, text = before ++ after ∧ byteLength before = offset

/-- Some characters of a text, of which there is at least one, take up a span. -/
structure Occupies (text : List Char) (span : Span) (chars : List Char) : Prop where
  some : chars ≠ []
  split : ∃ before after, text = before ++ chars ++ after ∧
    span = ⟨byteLength before, byteLength before + byteLength chars⟩

/-- Two boundaries split a text into three parts. -/
theorem Boundary.splits {text : List Char} {first last : Nat} (start : Boundary text first)
    (stop : Boundary text last) (le : first ≤ last) :
    ∃ before chars after, text = before ++ chars ++ after ∧ byteLength before = first ∧
      byteLength before + byteLength chars = last := by
  obtain ⟨before, rest, rfl, rfl⟩ := start
  obtain ⟨further, after, split, rfl⟩ := stop
  rcases List.append_eq_append_iff.1 split with ⟨chars, rfl, rfl⟩ | ⟨chars, rfl, rfl⟩
  · exact ⟨before, chars, after, (List.append_assoc ..).symm, rfl, (byteLength_append ..).symm⟩
  · rw [byteLength_append] at le
    obtain rfl := byteLength_eq_zero.1 (Nat.le_zero.1 (Nat.le_of_add_le_add_left le))
    exact ⟨further, [], rest, by simp, by simp, by simp⟩

section
variable {text chars : List Char} {span : Span}

/-- A place that holds characters is not empty. -/
theorem Occupies.proper (occupies : Occupies text span chars) : span.start < span.stop := by
  obtain ⟨some, before, after, -, rfl⟩ := occupies
  have positive := mt byteLength_eq_zero.1 some
  change byteLength before < byteLength before + byteLength chars
  omega

theorem Occupies.start (occupies : Occupies text span chars) : Boundary text span.start := by
  obtain ⟨-, before, after, rfl, rfl⟩ := occupies
  exact ⟨before, chars ++ after, List.append_assoc .., rfl⟩

theorem Occupies.stop (occupies : Occupies text span chars) : Boundary text span.stop := by
  obtain ⟨-, before, after, rfl, rfl⟩ := occupies
  exact ⟨before ++ chars, after, rfl, byteLength_append ..⟩

/-- A place that holds characters ends within the text. -/
theorem Occupies.le (occupies : Occupies text span chars) : span.stop ≤ byteLength text := by
  obtain ⟨-, before, after, rfl, rfl⟩ := occupies
  simp only [byteLength_append]
  omega

/-- There are characters between two different boundaries. -/
theorem Boundary.occupies (start : Boundary text span.start) (stop : Boundary text span.stop)
    (proper : span.start < span.stop) : ∃ chars, Occupies text span chars := by
  obtain ⟨before, chars, after, split, starts, stops⟩ := start.splits stop (Nat.le_of_lt proper)
  have positive : byteLength chars ≠ 0 := by omega
  refine ⟨chars, mt byteLength_eq_zero.2 positive, before, after, split, ?_⟩
  rw [stops, starts]

end

/-- The first line starts where the text does, and the others start later. -/
theorem lines_starts (start : Nat) (cs : List Char) :
    ∃ chars rest, lines start cs = ⟨start, chars⟩ :: rest ∧ ∀ line ∈ rest, start < line.start := by
  induction cs generalizing start with
  | nil => exact ⟨[], [], rfl, nofun⟩
  | cons c cs ih =>
      have positive := c.utf8Size_pos
      obtain ⟨chars, rest, cut, later⟩ := ih (start + c.utf8Size)
      rw [lines, cut]
      have further : ∀ line ∈ rest, start < line.start := fun line given => by
        have behind := later line given
        omega
      split
      · exact ⟨[c], _, rfl, List.forall_mem_cons.2 ⟨Nat.lt_add_of_pos_right positive, further⟩⟩
      · exact ⟨c :: chars, rest, rfl, further⟩

/-- The characters of a text that start before an offset. -/
def startingBefore (offset : Nat) : List Char → List Char
  | [] => []
  | c :: cs => if offset = 0 then [] else c :: startingBefore (offset - c.utf8Size) cs

/-- No character starts before the start of a text. -/
@[simp] theorem startingBefore_zero (cs : List Char) : startingBefore 0 cs = [] := by
  cases cs <;> rfl

/-- Between two parts of a text, the characters of the first one have started. -/
theorem startingBefore_append (before after : List Char) :
    startingBefore (byteLength before) (before ++ after) = before := by
  induction before with
  | nil => exact startingBefore_zero after
  | cons c before ih =>
      have positive := c.utf8Size_pos
      rw [List.cons_append, startingBefore, byteLength_cons, if_neg (by omega),
        Nat.add_sub_cancel_left, ih]

/-- No line that starts behind an offset starts at or before it. -/
theorem takeWhile_behind {cut : List Line} {offset : Nat}
    (behind : ∀ line ∈ cut, offset < line.start) :
    (cut.takeWhile fun line => line.start ≤ offset) = [] := by
  cases cut with
  | nil => rfl
  | cons line rest =>
      have beyond : ¬ line.start ≤ offset := Nat.not_le.2 (behind line List.mem_cons_self)
      simp [beyond]

/-- The number of lines that start at or before an offset is one more than the number of line breaks
before it. -/
theorem takeWhile_lines (start offset : Nat) (cs : List Char) :
    ((lines start cs).takeWhile fun line => line.start ≤ start + offset).length =
      1 + (startingBefore offset cs).count '\n' := by
  induction cs generalizing start offset with
  | nil => simp [lines, startingBefore]
  | cons c cs ih =>
      have positive := c.utf8Size_pos
      have early (chars : List Char) : decide ((Line.mk start chars).start ≤ start + offset) = true :=
        decide_eq_true (Nat.le_add_right start offset)
      rw [startingBefore]
      by_cases zero : offset = 0
      · obtain ⟨chars, rest, cut, later⟩ := lines_starts start (c :: cs)
        rw [if_pos zero, cut, List.takeWhile_cons, if_pos (early chars), zero,
          Nat.add_zero, takeWhile_behind later]
        rfl
      obtain ⟨chars, rest, cut, later⟩ := lines_starts (start + c.utf8Size) cs
      rw [if_neg zero, lines, cut]
      by_cases reached : c.utf8Size ≤ offset
      · have inner := ih (start + c.utf8Size) (offset - c.utf8Size)
        have first : start + c.utf8Size ≤ start + offset := Nat.add_le_add_left reached start
        rw [Nat.add_assoc, Nat.add_sub_cancel' reached, cut, List.takeWhile_cons,
          if_pos (decide_eq_true first)] at inner
        by_cases ends : c = '\n'
        · rw [if_pos ends, List.takeWhile_cons, if_pos (early _), List.takeWhile_cons,
            if_pos (decide_eq_true first), List.length_cons, inner, ends, List.count_cons_self]
          omega
        · rw [if_neg ends, List.takeWhile_cons, if_pos (early _), List.count_cons_of_ne ends]
          exact inner
      -- The offset falls inside the character, which is no line break then.
      · have ends : c ≠ '\n' := by
          rintro rfl
          exact reached (Nat.one_le_iff_ne_zero.2 zero)
        have beyond : ∀ line ∈ rest, start + offset < line.start := fun line given => by
          have behind := later line given
          omega
        rw [if_neg ends, List.takeWhile_cons, if_pos (early _), takeWhile_behind beyond,
          List.count_cons_of_ne ends, Nat.sub_eq_zero_of_le (Nat.le_of_not_le reached),
          startingBefore_zero]
        rfl

/-- The line of an offset is told by the line breaks before it. -/
theorem lineNumber_eq (cs : List Char) (offset : Nat) :
    lineNumber cs offset = 1 + (startingBefore offset cs).count '\n' := by
  have counted := takeWhile_lines 0 offset cs
  rw [Nat.zero_add] at counted
  exact counted

/-- The line of an offset between characters is told by the line breaks before it. -/
theorem lineNumber_append (before after : List Char) :
    lineNumber (before ++ after) (byteLength before) = 1 + before.count '\n' := by
  rw [lineNumber_eq, startingBefore_append]

/-- A slice that is not empty occupies its span. -/
theorem occupies_of_slice? {text chars : List Char} {span : Span} (filled : chars ≠ [])
    (given : slice? text span = some chars) : Occupies text span chars := by
  obtain ⟨start, stop⟩ := span
  unfold slice? at given
  split at given
  · cases given
  next forwards =>
    obtain ⟨⟨before, rest⟩, first, inner⟩ := Option.bind_eq_some_iff.1 given
    obtain ⟨⟨middle, after⟩, second, same⟩ := Option.bind_eq_some_iff.1 inner
    cases same
    obtain ⟨rfl, rfl⟩ := append_of_splitAt? first
    obtain ⟨rfl, length⟩ := append_of_splitAt? second
    refine ⟨filled, before, after, (List.append_assoc ..).symm, ?_⟩
    rw [length, Nat.add_sub_cancel' (Nat.le_of_not_lt forwards)]

end Lox.Text

namespace Lox.Report

open Text

/-- The characters of a span are its context. -/
theorem contextOf_chars {source : Source} {span : Span} {chars : List Char}
    (occupies : Occupies source.chars span chars) :
    contextOf source span = " at '" ++ String.ofList chars ++ "'" := by
  have before : ¬ source.text.utf8ByteSize ≤ span.start := by
    have proper := occupies.proper
    have within := occupies.le
    rw [Source.chars, byteLength_toList] at within
    omega
  obtain ⟨some, before, after, split, rfl⟩ := occupies
  rw [contextOf, if_neg before, split, slice?_append]
  cases chars with
  | nil => exact absurd rfl some
  | cons c cs => rfl

/-- The end of a source is its own context. -/
theorem contextOf_end (source : Source) :
    contextOf source (.empty source.text.utf8ByteSize) = " at end" := if_pos (Nat.le_refl _)

end Lox.Report
