import Lox.Proofs.Lexing.Exchange
import Lox.Proofs.Renaming.Trees

namespace Lox.Token

open Text (byteLength)

section
variable (new : Renaming)

/-- The text of some pieces with the new name. -/
def renamedChars (given : List (Located Piece)) : List Char :=
  given.flatMap fun piece => (new.piece piece).text

/-- A piece stays as it is, or it is an identifier and gets the new name. -/
theorem piece_cases (given : Located Piece) :
    new.piece given = given.item ∨
      (∃ name, given.item.kind = .token (.identifier name)) ∧
        new.piece given = ⟨.token (.identifier new.name), new.name.toList⟩ := by
  obtain ⟨⟨kind, text⟩, span⟩ := given
  unfold Renaming.piece
  split
  next name identifier =>
    split
    · exact .inr ⟨⟨name, identifier⟩, rfl⟩
    · exact .inl rfl
  all_goals exact .inl rfl

variable {new} (spelled : Spelling (.identifier new.name) new.name.toList)
include spelled

/-- The new name takes the place of an identifier, and what follows is cut off as before. -/
theorem StartsWith.renamed {piece : Located Piece} {rest instead : List Char}
    (first : StartsWith (piece.item.text ++ rest) piece.item) (clean : isErrorPiece piece = false)
    (exchange : Exchange rest instead) :
    StartsWith ((new.piece piece).text ++ instead) (new.piece piece) ∧
      Exchange (piece.item.text ++ rest) ((new.piece piece).text ++ instead) := by
  obtain ⟨has, starts⟩ := first.exchange clean exchange
  obtain ⟨⟨kind, text⟩, span⟩ := piece
  rcases piece_cases new ⟨⟨kind, text⟩, span⟩ with same | ⟨⟨name, rfl⟩, same⟩
  · rw [same]
    exact ⟨starts, .pattern has _ _⟩
  · obtain ⟨before, renamed⟩ := starts.otherWord spelled
    rw [same]
    refine ⟨renamed, ?_⟩
    have isWord := spelled.isWord
    generalize new.name.toList = chars at isWord
    cases before with
    | intro word _ =>
        cases isWord with
        | intro also _ => exact .words word also

/-- A text without errors is cut at the same places when its identifiers get the new name. -/
theorem Scans.renamed {start : Nat} {cs : List Char} {given : List (Located Piece)}
    (scans : Scans start cs given) (clean : ∀ piece ∈ given, isErrorPiece piece = false)
    (begin : Nat) :
    Exchange cs (renamedChars new given) ∧
      (pieces begin (renamedChars new given)).map Located.item = given.map new.piece := by
  induction scans generalizing begin with
  | nil =>
      refine ⟨.nil, ?_⟩
      rw [renamedChars, List.flatMap_nil, pieces]
      rfl
  | @cons start piece rest behind first further ih =>
      obtain ⟨here, clean⟩ := List.forall_mem_cons.1 clean
      let located : Located Piece := ⟨piece, ⟨start, start + byteLength piece.text⟩⟩
      obtain ⟨exchange, same⟩ := ih clean (begin + byteLength (new.piece located).text)
      have first : StartsWith (located.item.text ++ rest) located.item := first
      obtain ⟨starts, exchange⟩ := first.renamed spelled here exchange
      refine ⟨exchange, ?_⟩
      have scans := Scans.cons starts (pieces_scans (begin + byteLength (new.piece located).text) _)
      change (pieces begin ((new.piece located).text ++ renamedChars new behind)).map _ = _
      rw [← scans_iff.1 scans]
      exact congrArg (List.cons _) same

end

/-- The lexeme of a piece and the piece itself get the new name together. -/
theorem lexeme?_renamed (new : Renaming) (piece : Located Piece) :
    (lexeme? piece).map (fun lexeme => (new.lexeme lexeme).text) =
      tokenText? (new.piece piece) := by
  obtain ⟨⟨kind, text⟩, span⟩ := piece
  cases kind with
  | token token =>
      cases token with
      | identifier name =>
          by_cases chosen : span ∈ new.places <;>
            simp [lexeme?, tokenText?, Renaming.lexeme, Renaming.piece, Renaming.rename, chosen]
      | symbol | string | number | invalid => rfl
  | blank | invalid | unterminated => rfl

end Lox.Token

namespace Lox.Parser

open Token

/-- The renamed text has the texts of the renamed lexemes. -/
theorem lexemesOf_renamed {new : Renaming} {text : String} (clean : lexErrorsOf text = [])
    (spelled : Spelling (.identifier new.name) new.name.toList) :
    lexErrorsOf (new.text text) = [] ∧
      (lexemesOf (new.text text)).map Lexeme.text =
        ((lexemesOf text).map new.lexeme).map Lexeme.text := by
  have fine := pieces_clean clean
  have cut := ((pieces_scans 0 text.toList).renamed spelled fine 0).2
  have chars : (new.text text).toList = renamedChars new (pieces 0 text.toList) :=
    String.toList_ofList
  rw [← chars] at cut
  have fine' : ∀ piece ∈ (pieces 0 text.toList).map new.piece, piece.kind.isError = false := by
    intro piece given
    obtain ⟨before, inside, rfl⟩ := List.mem_map.1 given
    rcases piece_cases new before with kept | ⟨-, renamed⟩
    · rw [kept]
      exact fine before inside
    · rw [renamed]
      rfl
  obtain ⟨lexed, texts⟩ := texts_of_items cut fine'
  refine ⟨lexed, ?_⟩
  rw [texts, lexemesOf_of_clean fine, List.map_filterMap, List.map_filterMap, List.filterMap_map]
  have same : tokenText? ∘ new.piece =
      fun piece => (lexeme? piece).map (Lexeme.text ∘ new.lexeme) :=
    funext fun piece => (lexeme?_renamed new piece).symm
  simp only [same, Option.map_map]

end Lox.Parser
