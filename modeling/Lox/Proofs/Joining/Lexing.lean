import Lox.Proofs.Layout.Boundaries
import Lox.Proofs.Syntax.Recognition

namespace Lox

namespace Token

open Text

section
variable (offset : Nat)

def shiftSpan (span : Span) : Span := ⟨span.start + offset, span.stop + offset⟩

def shiftPiece (piece : Located Piece) : Located Piece := ⟨piece.item, shiftSpan offset piece.span⟩

def shiftItem : Item → Item
  | .lexeme given => .lexeme { given with span := shiftSpan offset given.span }
  | .error given => .error ⟨given.item, shiftSpan offset given.span⟩

/-- A text further on is cut into the same pieces further on. -/
theorem pieces_shift (start : Nat) (cs : List Char) :
    pieces (start + offset) cs = (pieces start cs).map (shiftPiece offset) := by
  fun_induction pieces start cs with
  | case1 => simp [pieces]
  | case2 start c cs stop ih =>
      have moved : start + offset + byteLength (firstPiece c cs).1.text = stop + offset :=
        Nat.add_right_comm ..
      rw [pieces, moved, ih]
      rfl

mutual

/-- Pieces further on make the same items further on. -/
theorem items_shift : ∀ given : List (Located Piece),
    items (given.map (shiftPiece offset)) = (items given).map (shiftItem offset)
  | [] => rfl
  | ⟨⟨kind, text⟩, span⟩ :: rest => by
      cases kind with
      | blank => exact items_shift rest
      | token token => exact congrArg (List.cons _) (items_shift rest)
      | invalid => exact itemsAfter_shift text span rest
      | unterminated => exact congrArg (List.cons _) (items_shift rest)

/-- Pieces behind some errors make the same items further on. -/
theorem itemsAfter_shift : ∀ (run : List Char) (span : Span) (given : List (Located Piece)),
    itemsAfter run (shiftSpan offset span) (given.map (shiftPiece offset)) =
      (itemsAfter run span given).map (shiftItem offset)
  | _, _, [] => rfl
  | run, span, ⟨⟨kind, text⟩, next⟩ :: rest => by
      have meets : (shiftSpan offset next).start = (shiftSpan offset span).stop ↔
          next.start = span.stop := Nat.add_right_cancel_iff
      cases kind with
      | blank => exact itemsAfter_shift run span rest
      | token token => exact congrArg (List.cons _ <| List.cons _ ·) (items_shift rest)
      | invalid | unterminated =>
          rw [List.map_cons]
          simp only [shiftPiece, itemsAfter, meets]
          split
          next => exact itemsAfter_shift (run ++ text) (span.to next) rest
          next => exact congrArg (List.cons _ <| List.cons _ ·) (items_shift rest)

end

end

/-- White space before a text only moves its items. -/
theorem items_space {c : Char} (space : isSpace c = true) (start : Nat) (cs : List Char) :
    items (pieces start (c :: cs)) = items (pieces (start + c.utf8Size) cs) := by
  have first (start : Nat) (c : Char) (cs : List Char) (space : isSpace c = true) :
      items (pieces start (c :: cs)) =
        items (pieces (start + c.utf8Size + byteLength (cs.takeWhile isSpace))
          (cs.dropWhile isSpace)) := by
    rw [pieces, firstPiece, if_pos space, items, byteLength_cons, Nat.add_assoc]
  rw [first start c cs space]
  cases cs with
  | nil => rfl
  | cons next rest =>
      by_cases also : isSpace next = true
      · rw [first (start + c.utf8Size) next rest also, List.takeWhile_cons_of_pos also,
          List.dropWhile_cons_of_pos also, byteLength_cons, Nat.add_assoc _ next.utf8Size]
      · rw [List.takeWhile_cons_of_neg also, List.dropWhile_cons_of_neg also, byteLength_nil,
          Nat.add_zero]

section
variable {p : Char → Bool} (stops : p '\n' = false) (cs rest : List Char)
include stops

/-- A test that fails at a line break takes nothing behind it. -/
theorem takeWhile_break : (cs ++ '\n' :: rest).takeWhile p = cs.takeWhile p := by
  induction cs with
  | nil => simp [stops]
  | cons c cs ih => rw [List.cons_append, List.takeWhile_cons, List.takeWhile_cons, ih]

/-- A test that fails at a line break leaves everything behind it. -/
theorem dropWhile_break : (cs ++ '\n' :: rest).dropWhile p = cs.dropWhile p ++ '\n' :: rest := by
  induction cs with
  | nil => simp [stops]
  | cons c cs ih =>
      rw [List.cons_append, List.dropWhile_cons, List.dropWhile_cons, ih]
      split <;> rfl

end

/-- A cut inside of a text does not depend on what follows the text. -/
theorem cut_inside {p : Char → Bool} {cs : List Char} (inside : cs.dropWhile p ≠ [])
    (rest : List Char) :
    (cs ++ rest).takeWhile p = cs.takeWhile p ∧
      (cs ++ rest).dropWhile p = cs.dropWhile p ++ rest := by
  induction cs with
  | nil => exact absurd rfl inside
  | cons c cs ih =>
      rw [List.dropWhile_cons] at inside
      rw [List.cons_append, List.takeWhile_cons, List.takeWhile_cons, List.dropWhile_cons,
        List.dropWhile_cons]
      split at inside
      next holds =>
        obtain ⟨content, behind⟩ := ih inside
        simp only [holds, if_true, content, behind, and_self]
      next fails => simp only [fails, Bool.false_eq_true, if_false, List.cons_append, and_self]

/-- A mark never reaches over a line break. -/
theorem mark?_break {given : List Char} (some : given ≠ []) (rest : List Char) :
    mark? (given ++ '\n' :: rest) =
      (mark? given).map fun found => (found.1, found.2 ++ '\n' :: rest) := by
  fun_cases mark? given
  -- A mark of one character could go on with an equals sign.
  case case5 | case6 | case7 | case8 =>
    rename_i cs other
    have apart (tail : List Char) : cs ++ '\n' :: rest ≠ '=' :: tail := by
      intro same
      cases cs with
      | nil => cases same
      | cons next cs =>
          cases same
          exact other cs rfl
    rw [List.cons_append, mark?]
    · rfl
    · exact apart
  case case19 =>
    obtain ⟨c, cs, rfl⟩ := List.exists_cons_of_ne_nil some
    rw [List.cons_append, mark?]
    · rfl
    -- No mark starts with this character.
    all_goals
      intro tail same
      obtain ⟨rfl, -⟩ := List.cons.inj same
      grind
  all_goals rfl

/-- A number never reaches over a line break. -/
theorem splitNumber_break (cs rest : List Char) :
    splitNumber (cs ++ '\n' :: rest) =
      ((splitNumber cs).1, (splitNumber cs).2 ++ '\n' :: rest) := by
  have digits : (cs ++ '\n' :: rest).takeWhile Char.isDigit = cs.takeWhile Char.isDigit :=
    takeWhile_break rfl cs rest
  have behind : (cs ++ '\n' :: rest).dropWhile Char.isDigit =
      cs.dropWhile Char.isDigit ++ '\n' :: rest := dropWhile_break rfl cs rest
  unfold splitNumber
  rw [digits, behind]
  rcases cs.dropWhile Char.isDigit with _ | ⟨c, _ | ⟨digit, others⟩⟩
  · rfl
  · by_cases point : c = '.'
    · subst point
      rfl
    · simp [point]
  · by_cases point : c = '.'
    · subst point
      have further : (digit :: others ++ '\n' :: rest).takeWhile Char.isDigit =
          (digit :: others).takeWhile Char.isDigit := takeWhile_break rfl _ rest
      have last : (digit :: others ++ '\n' :: rest).dropWhile Char.isDigit =
          (digit :: others).dropWhile Char.isDigit ++ '\n' :: rest := dropWhile_break rfl _ rest
      rw [List.cons_append] at further last
      simp only [List.cons_append, further, last]
      split <;> rfl
    · simp [point]

/-- No other piece than white space and a quote that is not closed reaches over a line break at its
end. -/
theorem firstPiece_break {c : Char} (cs rest : List Char) (visible : isSpace c = false)
    (clean : (firstPiece c cs).1.kind.isError = false) :
    firstPiece c (cs ++ '\n' :: rest) =
      ((firstPiece c cs).1, (firstPiece c cs).2 ++ '\n' :: rest) := by
  have next : (cs ++ '\n' :: rest).head? = some '/' ↔ cs.head? = some '/' := by
    cases cs <;> simp
  unfold firstPiece at clean ⊢
  simp only [visible, next, Bool.false_eq_true, if_false] at clean ⊢
  split
  · rw [takeWhile_break (by decide), dropWhile_break (by decide)]
  rename_i comment
  rw [if_neg comment] at clean
  split
  · rw [takeWhile_break rfl, dropWhile_break rfl]
  rename_i word
  rw [if_neg word] at clean
  split
  · rw [← List.cons_append, splitNumber_break]
  rename_i digit
  rw [if_neg digit] at clean
  split
  next quote =>
    rw [if_pos quote] at clean
    split at clean
    · cases clean
    next closing others closed =>
      obtain ⟨content, behind⟩ := cut_inside (p := (· ≠ '"')) (by rw [closed]; simp) ('\n' :: rest)
      rw [content, behind, closed]
      rfl
  next quote =>
    rw [if_neg quote] at clean
    rw [← List.cons_append, mark?_break (List.cons_ne_nil c cs)]
    cases found : mark? (c :: cs) with
    | none =>
        rw [found] at clean
        cases clean
    | some found => rfl

/-- From a run of invalid characters on there is an error. -/
theorem itemsAfter_error (run : List Char) (span : Span) (given : List (Located Piece)) :
    ∃ item ∈ itemsAfter run span given, item.error? ≠ none := by
  induction given generalizing run span with
  | nil => exact ⟨unexpected run span, by simp [itemsAfter], by simp [unexpected, Item.error?]⟩
  | cons piece rest ih =>
      obtain ⟨⟨kind, text⟩, next⟩ := piece
      have first (others : List Item) :
          ∃ item ∈ unexpected run span :: others, item.error? ≠ none :=
        ⟨unexpected run span, List.mem_cons_self, by simp [unexpected, Item.error?]⟩
      cases kind with
      | blank => exact ih run span
      | token token => exact first _
      | invalid | unterminated =>
          rw [itemsAfter]
          split
          · exact ih _ _
          · exact first _

section
variable {piece : Located Piece} (rest : List (Located Piece))

/-- A blank piece makes no item. -/
theorem items_of_blank (blank : piece.item.kind = .blank) :
    items (piece :: rest) = items rest := by
  obtain ⟨⟨kind, text⟩, span⟩ := piece
  cases blank
  rfl

/-- A token makes a lexeme. -/
theorem items_of_token {token : Token} (spelled : piece.item.kind = .token token) :
    items (piece :: rest) =
      .lexeme ⟨token, String.ofList piece.item.text, piece.span⟩ :: items rest := by
  obtain ⟨⟨kind, text⟩, span⟩ := piece
  cases spelled
  rfl

/-- A piece that forms no token makes an item that is an error. -/
theorem items_of_error {piece : Piece} {span : Span} (wrong : piece.kind.isError = true) :
    ∃ item ∈ items (⟨piece, span⟩ :: rest), item.error? ≠ none := by
  obtain ⟨kind, text⟩ := piece
  cases kind with
  | blank => cases wrong
  | token token => cases wrong
  | invalid => exact itemsAfter_error text span rest
  | unterminated =>
      exact ⟨.error ⟨.unterminatedString, span⟩, List.mem_cons_self, by simp [Item.error?]⟩

end

/-- A line break behind a text without errors separates it from the next one. -/
theorem items_break (start : Nat) (cs rest : List Char)
    (clean : ∀ item ∈ items (pieces start cs), item.error? = none) :
    items (pieces start (cs ++ '\n' :: rest)) =
      items (pieces start cs) ++ items (pieces (start + byteLength cs + 1) rest) := by
  match cs with
  | [] =>
      have space := items_space (show isSpace '\n' = true by decide) start rest
      rw [pieces, items, List.nil_append, List.nil_append, space]
      rfl
  | c :: cs =>
      have shorter := firstPiece_rest_length c cs
      have total : start + byteLength (c :: cs) =
          start + byteLength (firstPiece c cs).1.text + byteLength (firstPiece c cs).2 := by
        rw [← firstPiece_append c cs, byteLength_append, Nat.add_assoc]
      -- White space could go on behind the line break, so it is left out a character at a time.
      by_cases space : isSpace c = true
      · rw [items_space space] at clean
        rw [List.cons_append, items_space space, items_space space, items_break _ cs rest clean,
          byteLength_cons, Nat.add_assoc start]
      have separate := firstPiece_break cs rest (Bool.eq_false_iff.2 space)
      rw [pieces] at clean
      rw [total, List.cons_append, pieces, pieces]
      cases kind : (firstPiece c cs).1.kind with
      | blank =>
          rw [items_of_blank _ kind] at clean
          rw [separate (by rw [kind]; rfl), items_of_blank _ kind, items_of_blank _ kind]
          exact items_break _ (firstPiece c cs).2 rest clean
      | token token =>
          rw [items_of_token _ kind] at clean
          rw [separate (by rw [kind]; rfl), items_of_token _ kind, items_of_token _ kind,
            List.cons_append]
          exact congrArg (List.cons _) (items_break _ (firstPiece c cs).2 rest
            (List.forall_mem_cons.1 clean).2)
      | invalid | unterminated =>
          have error : (firstPiece c cs).1.kind.isError = true := by rw [kind]; rfl
          obtain ⟨item, given, wrong⟩ := items_of_error _ error
          exact absurd (clean item given) wrong
termination_by cs.length
decreasing_by all_goals simp only [List.length_cons]; omega

/-- The text behind a line break gives the items that it gives alone, further behind. -/
theorem lex_break (first second : String)
    (clean : ∀ item ∈ lex first, item.error? = none) :
    lex (first ++ "\n" ++ second) =
      lex first ++ (lex second).map (shiftItem (first.utf8ByteSize + 1)) := by
  have joined := items_break 0 first.toList second.toList clean
  rw [byteLength_toList, Nat.zero_add, ← Nat.zero_add (first.utf8ByteSize + 1), pieces_shift,
    items_shift] at joined
  rw [lex, String.toList_append, String.toList_append, List.append_assoc]
  exact joined

end Token

end Lox
