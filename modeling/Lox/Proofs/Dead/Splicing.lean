import Lox.Proofs.Dead.Places
import Lox.Proofs.Joining.Parsing
import Lox.Proofs.Lexing.Exchange
import Mathlib.Data.List.Basic

namespace Lox.Token

open Text (byteLength byteLength_append splitAt?_append)

/-- A piece with a pattern is cut off whatever follows. -/
structure Separates (piece : Piece) : Prop where
  pattern : HasPattern piece.text
  cut : ∀ rest, StartsWith (piece.text ++ rest) piece

/-- A mark that ends declarations separates what is before it from what is behind it. -/
theorem separates_of_mark {symbol : Symbol} (ends : Grammar.endsDeclaration symbol = true) :
    Separates ⟨.token (.symbol symbol), symbol.text.toList⟩ := by
  refine ⟨.inl ⟨_, .symbol symbol⟩, fun rest => ?_⟩
  cases symbol
  case leftBrace => exact firstPiece_startsWith '\x7b' rest
  case rightBrace => exact firstPiece_startsWith '\x7d' rest
  case semicolon => exact firstPiece_startsWith ';' rest
  all_goals cases ends

/-- Where a text stands does not matter for its pieces. -/
theorem pieces_items (start : Nat) (cs : List Char) :
    (pieces start cs).map Located.item = (pieces 0 cs).map Located.item := by
  have moved := pieces_shift start 0 cs
  rw [Nat.zero_add] at moved
  rw [moved, List.map_map]
  rfl

/-- What stands in front of a separating piece is cut as before when another text follows. -/
theorem Scans.instead {start : Nat} {cs : List Char} {piece : Located Piece}
    {before after : List (Located Piece)} (scans : Scans start cs (before ++ piece :: after))
    (clean : ∀ other ∈ before, isErrorPiece other = false) (separates : Separates piece.item)
    (begin : Nat) (others : List Char) :
    Exchange cs (charsOf before ++ (piece.item.text ++ others)) ∧
      (pieces begin (charsOf before ++ (piece.item.text ++ others))).map Located.item =
        before.map Located.item ++ piece.item :: (pieces 0 others).map Located.item := by
  induction before generalizing start cs begin with
  | nil =>
      have again := Scans.cons (separates.cut others)
        (pieces_scans (begin + byteLength piece.item.text) others)
      obtain ⟨behind, rfl, -⟩ := scans.tail
      refine ⟨.pattern separates.pattern _ _, ?_⟩
      rw [charsOf_nil, List.nil_append, ← scans_iff.1 again, List.map_cons, pieces_items]
      rfl
  | cons other before ih =>
      obtain ⟨here, fine⟩ := List.forall_mem_cons.1 clean
      cases scans with
      | @cons _ found rest _ first further =>
          obtain ⟨exchange, same⟩ := ih further fine (begin + byteLength found.text)
          obtain ⟨has, starts⟩ := first.exchange here exchange
          have again := Scans.cons starts (pieces_scans (begin + byteLength found.text) _)
          rw [charsOf_cons, List.append_assoc]
          refine ⟨.pattern has _ _, ?_⟩
          rw [← scans_iff.1 again, List.map_cons, same]
          rfl

end Lox.Token

namespace Lox.Parser

open Grammar (EndsDeclaration)
open Text (Boundary byteLength byteLength_append byteLength_ofList byteLength_toList
  splitAt?_append)
open Token

/-- Starts of a text that take up as many bytes are the same. -/
theorem append_inj_of_byteLength {first second start rest : List Char}
    (same : first ++ second = start ++ rest) (size : byteLength first = byteLength start) :
    first = start ∧ second = rest := by
  have split := splitAt?_append first second
  rw [same, size, splitAt?_append] at split
  cases split
  exact ⟨rfl, rfl⟩

/-- The lexemes of a text without errors up to one of them are those of some of its pieces. -/
theorem exists_pieces {text : String} {init late : List Lexeme} {mark : Lexeme}
    (clean : ∀ piece ∈ pieces 0 text.toList, isErrorPiece piece = false)
    (contains : lexemesOf text = init ++ mark :: late) :
    ∃ before piece after, pieces 0 text.toList = before ++ piece :: after ∧
      before.filterMap lexeme? = init ∧ lexeme? piece = some mark ∧
        after.filterMap lexeme? = late := by
  rw [lexemesOf_of_clean clean] at contains
  obtain ⟨start, rest, split, early, others⟩ := List.filterMap_eq_append_iff.1 contains
  obtain ⟨skipped, piece, after, rfl, none, given, behind⟩ := List.filterMap_eq_cons_iff.1 others
  refine ⟨start ++ skipped, piece, after, by rw [split, List.append_assoc], ?_, given, behind⟩
  rw [List.filterMap_append, early, List.filterMap_eq_nil_iff.2 none, List.append_nil]

/-- A piece that makes a mark is the mark and ends where the mark does. -/
theorem mark_of_piece {piece : Located Piece} {mark : Lexeme} {symbol : Symbol} {text : List Char}
    (made : lexeme? piece = some mark) (spelled : Spells symbol mark)
    (starts : StartsWith text piece.item) :
    piece.item = ⟨.token (.symbol symbol), symbol.text.toList⟩ ∧ mark.span = piece.span := by
  obtain ⟨⟨kind, chars⟩, span⟩ := piece
  cases kind with
  | token token =>
      cases made
      obtain rfl : token = .symbol symbol := spelled
      obtain rfl : chars = symbol.text.toList := (starts.of_token rfl).1.of_symbol
      exact ⟨rfl, rfl⟩
  | blank | invalid | unterminated => cases made

/-- A text without errors that is cut behind a mark: what follows has its lexemes alone, too, and what
stands in front of the mark keeps its lexemes when another text follows. -/
theorem lexemesOf_cut {head tail : String} {early late : List Lexeme}
    (lexed : lexErrorsOf (head ++ tail) = []) (contains : lexemesOf (head ++ tail) = early ++ late)
    (ends : EndsDeclaration early) (size : head.utf8ByteSize = endOf 0 early) :
    (lexErrorsOf tail = [] ∧ (lexemesOf tail).map Lexeme.text = late.map Lexeme.text) ∧
      ∀ other, lexErrorsOf other = [] → lexErrorsOf (head ++ other) = [] ∧
        (lexemesOf (head ++ other)).map Lexeme.text =
          early.map Lexeme.text ++ (lexemesOf other).map Lexeme.text := by
  obtain ⟨mark, symbol, last, spelled, ends⟩ := ends
  obtain ⟨init, rfl⟩ := List.getLast?_eq_some_iff.1 last
  have clean := pieces_clean lexed
  rw [List.append_assoc] at contains
  obtain ⟨before, piece, after, given, rfl, made, rfl⟩ := exists_pieces clean contains
  have scans := pieces_scans 0 (head ++ tail).toList
  rw [given] at scans clean
  obtain ⟨early, fine⟩ := List.forall_mem_append.1 clean
  obtain ⟨-, late⟩ := List.forall_mem_cons.1 fine
  obtain ⟨rest, chars, further⟩ := scans.append
  obtain ⟨behind, rfl, others⟩ := further.tail
  obtain ⟨item, place⟩ := mark_of_piece made spelled further.head.2
  -- The mark ends where the text is cut.
  obtain ⟨front, rest⟩ : head.toList = charsOf before ++ piece.item.text ∧ tail.toList = behind := by
    rw [String.toList_append, ← List.append_assoc] at chars
    refine append_inj_of_byteLength chars ?_
    rw [byteLength_toList, size, endOf_append, endOf_cons, endOf_nil, place, further.head.1,
      byteLength_append, Nat.zero_add]
  constructor
  · have same : (pieces 0 tail.toList).map Located.item = after.map Located.item := by
      rw [rest, scans_iff.1 others, ← pieces_items]
    obtain ⟨clear, texts⟩ := texts_of_items same (List.forall_mem_map.2 late)
    exact ⟨clear, texts.trans (texts_of_pieces after)⟩
  · intro other lexed
    have same := (scans.instead early (item ▸ separates_of_mark ends) 0 other.toList).2
    rw [← List.append_assoc, ← front, ← String.toList_append] at same
    have fine : ∀ given ∈ before.map Located.item ++ piece.item ::
        (pieces 0 other.toList).map Located.item, given.kind.isError = false :=
      List.forall_mem_append.2 ⟨List.forall_mem_map.2 early,
        List.forall_mem_cons.2 ⟨clean piece (by simp), List.forall_mem_map.2 (pieces_clean lexed)⟩⟩
    obtain ⟨clear, texts⟩ := texts_of_items same fine
    have token : tokenText? piece.item = some mark.text := by
      rw [← lexeme?_text, made]
      rfl
    refine ⟨clear, texts.trans ?_⟩
    rw [List.filterMap_append, List.filterMap_cons_some token, texts_of_pieces, texts_of_pieces,
      lexemesOf_of_clean (pieces_clean lexed), List.map_append, List.append_assoc]
    rfl

/-- A text may be cut behind each of its lexemes. -/
theorem boundary_endOf {text : String} {early late : List Lexeme}
    (contains : lexemesOf text = early ++ late) : Boundary text.toList (endOf 0 early) := by
  rcases List.eq_nil_or_concat' early with rfl | ⟨init, last, rfl⟩
  · exact ⟨[], _, rfl, rfl⟩
  · have given : last ∈ lexemesOf text := by simp [contains]
    obtain ⟨chars, occupies⟩ := lexemesOf_occupies given
    rw [endOf_append]
    exact occupies.stop

/-- A text has a part from one of its lexemes to a later one. -/
theorem exists_part {text : String} {early gone late : List Lexeme}
    (contains : lexemesOf text = early ++ (gone ++ late)) :
    ∃ head middle rest, text = head ++ middle ++ rest ∧ head.utf8ByteSize = endOf 0 early ∧
      (head ++ middle).utf8ByteSize = endOf 0 (early ++ gone) := by
  have start := boundary_endOf contains
  have stop := boundary_endOf (contains.trans (List.append_assoc ..).symm)
  have order := lexemesOf_inOrder text
  have le : endOf 0 early ≤ endOf 0 (early ++ gone) := by
    rcases List.eq_nil_or_concat' gone with rfl | ⟨others, last, rfl⟩
    · rw [List.append_nil]
    rcases List.eq_nil_or_concat' early with rfl | ⟨init, first, rfl⟩
    · exact Nat.zero_le _
    have follow : first.span.stop ≤ last.span.start :=
      (List.pairwise_append.1 (contains ▸ order.ordered)).2.2 first (by simp) last (by simp)
    have proper := order.proper last (by simp [contains])
    simp only [endOf_append, endOf_cons, endOf_nil]
    omega
  obtain ⟨head, middle, rest, split, starts, stops⟩ := start.splits stop le
  refine ⟨.ofList head, .ofList middle, .ofList rest, ?_, ?_, ?_⟩
  · rw [← String.ofList_append, ← String.ofList_append, ← split, String.ofList_toList]
  · rw [← byteLength_ofList, starts]
  · rw [← String.ofList_append, ← byteLength_ofList, byteLength_append, stops]

/-- A part of a text between two marks may be replaced by another text, which is closed by a line
break: the lexemes in front of it and behind it stay as they are. -/
theorem lexemesOf_spliced {head middle rest other : String} {early gone late : List Lexeme}
    (lexed : lexErrorsOf (head ++ middle ++ rest) = [])
    (contains : lexemesOf (head ++ middle ++ rest) = early ++ (gone ++ late))
    (starts : EndsDeclaration early) (stops : EndsDeclaration (early ++ gone))
    (first : head.utf8ByteSize = endOf 0 early)
    (last : (head ++ middle).utf8ByteSize = endOf 0 (early ++ gone))
    (clear : lexErrorsOf other = []) :
    lexErrorsOf (head ++ (other ++ "\n" ++ rest)) = [] ∧
      (lexemesOf (head ++ (other ++ "\n" ++ rest))).map Lexeme.text =
        (early ++ (lexemesOf other ++ late)).map Lexeme.text := by
  obtain ⟨⟨behind, texts⟩, -⟩ :=
    lexemesOf_cut lexed (by rw [contains, List.append_assoc]) stops last
  rw [String.append_assoc] at lexed contains
  obtain ⟨-, instead⟩ := lexemesOf_cut lexed contains starts first
  have joined : lexErrorsOf (other ++ "\n" ++ rest) = [] := by
    rw [lexErrorsOf_break clear 0, behind, List.map_nil]
  obtain ⟨fine, whole⟩ := instead _ joined
  refine ⟨fine, whole.trans ?_⟩
  rw [lexemesOf_break clear, List.map_append, List.map_append, List.map_append, List.map_map,
    ← texts]
  rfl

end Lox.Parser
