import Lox.Proofs.Lexing.Exchange
import Lox.Proofs.Syntax.Paths

namespace Lox

namespace Token

open Text

/-- The text that an item carries. An error about a missing quote carries none. -/
def Item.text? : Item → Option String
  | .lexeme given => some given.text
  | .error given => given.item.text?

/-- The characters of a group of pieces are the slice at its span. -/
theorem Scans.slice {cs : List Char} {before group after : List (Located Piece)}
    (scans : Scans 0 cs (before ++ (group ++ after))) :
    slice? cs (spanFrom (byteLength (charsOf before)) group) = some (charsOf group) := by
  obtain ⟨rest, rfl, further⟩ := scans.append
  obtain ⟨behind, rfl, -⟩ := further.append
  rw [spanFrom, ← List.append_assoc]
  exact slice?_append (charsOf before) (charsOf group) behind

/-- An item carries the characters that it is made of. -/
theorem Made.text {group : List (Located Piece)} {item : Item} (made : Made group item)
    {text : String} (carries : item.text? = some text) : text.toList = charsOf group := by
  cases made with
  | token | leftover =>
      cases carries
      simp
  | gathered gathered =>
      cases gathered with
      | run =>
          cases carries
          exact String.toList_ofList
      | unterminated => cases carries

/-- An item's text is the slice of the source at the item's span. -/
theorem lex_slice {source text : String} {item : Item} (among : item ∈ lex source)
    (carries : item.text? = some text) : slice? source.toList item.span = some text.toList := by
  have scans := pieces_scans 0 source.toList
  obtain ⟨before, group, after, split, made⟩ := (groups_of_scans scans).parts.of_item among
  rw [split] at scans
  obtain ⟨behind, -, later⟩ := scans.append
  rw [made.text carries, made.span later, Nat.zero_add]
  exact scans.slice

/-- A token with only one spelling is spelled so. -/
theorem Spelling.of_spelling? {token : Token} {text : List Char} {spelling : String}
    (spelled : Spelling token text) (only : token.spelling? = some spelling) :
    text = spelling.toList := by
  cases token with
  | symbol symbol =>
      cases only
      exact spelled.of_symbol
  | identifier name =>
      cases only
      exact spelled.word_eq
  | string | number | invalid => cases only

end Token

namespace Parser

open Text Token

section
variable {source : String}

/-- The text of a lexeme is the slice at its span. -/
theorem lexemesOf_slice {lexeme : Lexeme} (among : lexeme ∈ lexemesOf source) :
    slice? source.toList lexeme.span = some lexeme.text.toList := by
  obtain ⟨item, given, same⟩ := List.mem_filterMap.1 among
  cases item with
  | lexeme other =>
      cases same
      exact lex_slice given rfl
  | error error => cases same

/-- The text in an error of the lexer is the slice at its span. -/
theorem lexErrorsOf_slice {error : Located Error} {text : String}
    (among : error ∈ lexErrorsOf source) (names : error.item.text? = some text) :
    slice? source.toList error.span = some text.toList := by
  obtain ⟨item, given, same⟩ := List.mem_filterMap.1 among
  cases item with
  | lexeme lexeme => cases same
  | error other =>
      cases same
      exact lex_slice given names

/-- A lexeme that is no leftover of an error has the token of its text. -/
theorem lexemesOf_spelled {lexeme : Lexeme} (among : lexeme ∈ lexemesOf source)
    (valid : lexeme.token ≠ .invalid) : Spelling lexeme.token lexeme.text.toList := by
  obtain ⟨item, given, same⟩ := List.mem_filterMap.1 among
  cases item with
  | error error => cases same
  | lexeme other =>
      cases same
      have scans := pieces_scans 0 source.toList
      obtain ⟨before, group, after, split, made⟩ := (groups_of_scans scans).parts.of_item given
      rcases made.cases with ⟨piece, token, rfl, kind, same⟩ | ⟨wrong, -⟩
      · cases same
        rw [split] at scans
        exact (munched_of_scans scans kind).spelled
      · exact absurd wrong valid

/-- Where a lexeme with only one spelling stands, the source is spelled so. -/
theorem Stands.slice {text : String} {span : Span} (stands : Stands (lexemesOf source) text span) :
    slice? source.toList span = some text.toList := by
  obtain ⟨lexeme, among, rfl, only⟩ := stands
  have valid : lexeme.token ≠ .invalid := by
    intro same
    rw [same] at only
    cases only
  rw [lexemesOf_slice among, (lexemesOf_spelled among valid).of_spelling? only]

end

end Parser

end Lox
