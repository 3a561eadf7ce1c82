/-
This file cuts text into its longest tokens, its white space and its comments.
-/

import Lox.Number
import Lox.Text.Slice
import Lox.Token

namespace Lox.Token

open Text (byteLength)

/-- A piece is left out, forms a token or forms none. -/
inductive Kind where
  | blank
  | token (token : Token)
  /-- One character that starts no token. -/
  | invalid
  /-- A quote without a closing quote, up to the end of the text. -/
  | unterminated
  deriving Repr

def Kind.isError : Kind → Bool
  | .invalid | .unterminated => true
  | .blank | .token _ => false

/-- A piece is a run of characters that belong together. -/
structure Piece where
  kind : Kind
  text : List Char
  deriving Repr

/-- White space between tokens is a space, a line break, a tab or a form feed. -/
def isSpace (c : Char) : Bool :=
  c = ' ' || c = '\r' || c = '\n' || c = '\t' || c = '\x0c'

/-- A word starts with a letter or an underscore. -/
def isWordStart (c : Char) : Bool := c.isAlpha || c = '_'

/-- A word goes on with letters, digits and underscores. -/
def isWordPart (c : Char) : Bool := c.isAlphanum || c = '_'

/-- The longest mark or operator at the start of a text, with the text behind it. -/
def mark? : List Char → Option (Symbol × List Char)
  | '!' :: '=' :: rest => some (.bangEqual, rest)
  | '=' :: '=' :: rest => some (.equalEqual, rest)
  | '>' :: '=' :: rest => some (.greaterEqual, rest)
  | '<' :: '=' :: rest => some (.lessEqual, rest)
  | '!' :: rest => some (.bang, rest)
  | '=' :: rest => some (.equal, rest)
  | '>' :: rest => some (.greater, rest)
  | '<' :: rest => some (.less, rest)
  | '(' :: rest => some (.leftParen, rest)
  | ')' :: rest => some (.rightParen, rest)
  | '\x7b' :: rest => some (.leftBrace, rest)
  | '\x7d' :: rest => some (.rightBrace, rest)
  | ',' :: rest => some (.comma, rest)
  | ';' :: rest => some (.semicolon, rest)
  | '+' :: rest => some (.plus, rest)
  | '-' :: rest => some (.minus, rest)
  | '*' :: rest => some (.star, rest)
  | '/' :: rest => some (.slash, rest)
  | _ => none

/-- A mark and what is behind it give the text back. -/
theorem append_of_mark? {cs rest : List Char} {mark : Symbol}
    (found : mark? cs = some (mark, rest)) :
    mark.text.toList ++ rest = cs ∧ mark.text.toList ≠ [] := by
  unfold mark? at found
  split at found <;> first
    | cases found; exact ⟨rfl, by decide⟩
    | cases found

/-- A keyword is its own symbol, and any other word is an identifier. -/
def ofWord (word : List Char) : Token :=
  let text := String.ofList word
  match Symbol.ofWord? text with
  | some keyword => .symbol keyword
  | none => .identifier text

/-- The digits of a number that begins a text, with the text behind them. A point belongs to
the number when a digit follows it. -/
def splitNumber (cs : List Char) : List Char × List Char :=
  let whole := cs.takeWhile Char.isDigit
  match cs.dropWhile Char.isDigit with
  | '.' :: digit :: rest =>
      if digit.isDigit then
        (whole ++ '.' :: (digit :: rest).takeWhile Char.isDigit,
          (digit :: rest).dropWhile Char.isDigit)
      else (whole, '.' :: digit :: rest)
  | rest => (whole, rest)

/-- A number and what is behind it give the text back. -/
theorem splitNumber_append (cs : List Char) :
    (splitNumber cs).1 ++ (splitNumber cs).2 = cs := by
  unfold splitNumber
  split
  next digit rest point =>
    have whole := List.takeWhile_append_dropWhile (p := Char.isDigit) (l := cs)
    rw [point] at whole
    split
    · rw [List.append_assoc, List.cons_append, List.takeWhile_append_dropWhile]
      exact whole
    · exact whole
  next => exact List.takeWhile_append_dropWhile

/-- The piece at the start of a text that is not empty, with the text behind it. -/
def firstPiece (c : Char) (cs : List Char) : Piece × List Char :=
  if isSpace c then
    (⟨.blank, c :: cs.takeWhile isSpace⟩, cs.dropWhile isSpace)
  else if c = '/' && cs.head? = some '/' then
    (⟨.blank, c :: cs.takeWhile (· ≠ '\n')⟩, cs.dropWhile (· ≠ '\n'))
  else if isWordStart c then
    let word := c :: cs.takeWhile isWordPart
    (⟨.token (ofWord word), word⟩, cs.dropWhile isWordPart)
  else if c.isDigit then
    let digits := (splitNumber (c :: cs)).1
    (⟨.token (.number (Number.ofLiteral digits)), digits⟩, (splitNumber (c :: cs)).2)
  else if c = '"' then
    let content := cs.takeWhile (· ≠ '"')
    match cs.dropWhile (· ≠ '"') with
    | [] => (⟨.unterminated, c :: cs⟩, [])
    | quote :: rest =>
        (⟨.token (.string (String.ofList content)), c :: content ++ [quote]⟩, rest)
  else
    match mark? (c :: cs) with
    | some (mark, rest) => (⟨.token (.symbol mark), mark.text.toList⟩, rest)
    | none => (⟨.invalid, [c]⟩, cs)

/-- The first piece and what is behind it give the text back. -/
theorem firstPiece_append (c : Char) (cs : List Char) :
    (firstPiece c cs).1.text ++ (firstPiece c cs).2 = c :: cs := by
  unfold firstPiece
  split
  · simp
  split
  · simp
  split
  · simp
  split
  · exact splitNumber_append (c :: cs)
  split
  · have content := List.takeWhile_append_dropWhile (p := (· ≠ '"')) (l := cs)
    split
    next => simp
    next quote rest closing =>
      rw [closing] at content
      simpa using content
  · split
    next mark rest found => exact (append_of_mark? found).1
    next => rfl

/-- A piece takes a character or more. -/
theorem firstPiece_ne_nil (c : Char) (cs : List Char) : (firstPiece c cs).1.text ≠ [] := by
  unfold firstPiece
  split
  · simp
  split
  · simp
  split
  · simp
  split
  next digit =>
    unfold splitNumber
    split
    · split <;> simp [digit]
    · simp [digit]
  split
  · split <;> simp
  · split
    next mark rest found => exact (append_of_mark? found).2
    next => simp

/-- The text gets shorter with each piece. -/
theorem firstPiece_rest_length (c : Char) (cs : List Char) :
    (firstPiece c cs).2.length ≤ cs.length := by
  have whole := congrArg List.length (firstPiece_append c cs)
  have some := List.length_pos_iff.2 (firstPiece_ne_nil c cs)
  simp only [List.length_append, List.length_cons] at whole
  omega

/-- The pieces of a text that starts at an offset. -/
def pieces (start : Nat) : List Char → List (Located Piece)
  | [] => []
  | c :: cs =>
      let stop := start + byteLength (firstPiece c cs).1.text
      ⟨(firstPiece c cs).1, ⟨start, stop⟩⟩ :: pieces stop (firstPiece c cs).2
termination_by cs => cs.length
decreasing_by exact Nat.lt_succ_of_le (firstPiece_rest_length c cs)

/-- The pieces lose nothing. -/
theorem pieces_text (start : Nat) (cs : List Char) :
    (pieces start cs).flatMap (fun piece => piece.item.text) = cs := by
  fun_induction pieces start cs with
  | case1 => rfl
  | case2 start c cs stop ih =>
      rw [List.flatMap_cons, ih]
      exact firstPiece_append c cs

end Lox.Token
