import Lox.Proofs.Joining.Parsing
import Lox.Proofs.Label.Spacing

namespace Lox

namespace Token

/-- The text of a token is cut as a single lexeme. -/
theorem lex_of_spelling {token : Token} {text : String} (spelled : Spelling token text.toList) :
    lex text = [.lexeme ⟨token, text, ⟨0, Text.byteLength text.toList⟩⟩] := by
  let piece : Piece := ⟨.token token, text.toList⟩
  have starts : StartsWith (piece.text ++ []) piece := by
    rw [List.append_nil]
    exact .token spelled ⟨List.prefix_refl _, fun other starts _ => starts.length_le⟩
  have scans : Scans 0 (piece.text ++ []) _ := .cons starts .nil
  rw [List.append_nil] at scans
  rw [lex, ← scans_iff.1 scans, Nat.zero_add]
  simp [piece, items]

end Token

namespace Parser

open Token

variable {lexemes others : List Lexeme}

/-- Lexemes with the same texts have the same tokens. -/
theorem tokens_of_texts (spelled : ∀ lexeme ∈ lexemes, Spelling lexeme.token lexeme.text.toList)
    (also : ∀ lexeme ∈ others, Spelling lexeme.token lexeme.text.toList)
    (same : lexemes.map Lexeme.text = others.map Lexeme.text) :
    lexemes.map Lexeme.token = others.map Lexeme.token := by
  induction lexemes generalizing others with
  | nil => rw [List.map_eq_nil_iff.1 same.symm]
  | cons lexeme rest ih =>
      obtain ⟨other, further, rfl, text, texts⟩ := List.map_eq_cons_iff.1 same.symm
      obtain ⟨first, spelled⟩ := List.forall_mem_cons.1 spelled
      obtain ⟨second, also⟩ := List.forall_mem_cons.1 also
      rw [text] at second
      exact congrArg₂ List.cons (first.unique second) (ih spelled also texts.symm)

/-- Each of the lexemes stands on a line of its own. -/
def linesOf : List Lexeme → String
  | [] => ""
  | lexeme :: rest => lexeme.text ++ "\n" ++ linesOf rest

/-- Tokens on lines of their own are lexed as they are. -/
theorem linesOf_lexemes (spelled : ∀ lexeme ∈ lexemes, Spelling lexeme.token lexeme.text.toList) :
    lexErrorsOf (linesOf lexemes) = [] ∧
      (lexemesOf (linesOf lexemes)).map Lexeme.text = lexemes.map Lexeme.text := by
  induction lexemes with
  | nil => simp [linesOf, lexErrorsOf, lexemesOf, lex, pieces, items]
  | cons lexeme rest ih =>
      obtain ⟨first, spelled⟩ := List.forall_mem_cons.1 spelled
      obtain ⟨clean, texts⟩ := ih spelled
      have lexed : lexErrorsOf lexeme.text = [] := by
        simp [lexErrorsOf, lex_of_spelling first, Item.error?]
      have single : (lexemesOf lexeme.text).map Lexeme.text = [lexeme.text] := by
        simp [lexemesOf, lex_of_spelling first, Item.lexeme?]
      constructor
      · rw [linesOf, lexErrorsOf_break lexed 0, clean, List.map_nil]
      · rw [linesOf, lexemesOf_break lexed, List.map_append, single, List.map_map, List.map_cons,
          ← texts]
        rfl

end Parser

end Lox
