import Lox.Proofs.Syntax.DanglingElse
import Lox.Proofs.Syntax.StatementSentences

namespace Lox.Parser

open Grammar

/-- The lexemes of a text. -/
def lexemesOf (text : String) : List Lexeme := (Token.lex text).filterMap Token.Item.lexeme?

/-- The errors that the lexer finds in a text. -/
def lexErrorsOf (text : String) : List (Located Error) :=
  (Token.lex text).filterMap Token.Item.error?

/-- What is read of a text, with the errors behind those of the lexer. -/
theorem parse_reads (text : String) :
    ∃ program last,
      Parser.program text.utf8ByteSize (enoughFuel (lexemesOf text))
          ⟨lexemesOf text, 0, 0, (lexErrorsOf text).toArray⟩ = .ok program last ∧
        parse text = ⟨program, last.errors.toList⟩ ∧
        Advances 0 ⟨lexemesOf text, 0, 0, (lexErrorsOf text).toArray⟩ last := by
  obtain ⟨program, last, ended, advances⟩ :=
    program_reads text.utf8ByteSize (lexemesOf text) (lexErrorsOf text).toArray
  refine ⟨program, last, ended, ?_, advances⟩
  change parseLexemes text.utf8ByteSize (lexemesOf text) (lexErrorsOf text) = _
  unfold parseLexemes EStateM.run
  rw [ended]

/-- Lexemes that form a program are read to its tree. -/
theorem parseLexemes_of_forms {eof : Nat} {lexemes : List Lexeme} {program : Program}
    (forms : Forms .nearest lexemes program) : parseLexemes eof lexemes [] = ⟨program, []⟩ := by
  obtain ⟨occurrences, form⟩ := forms
  obtain ⟨given, last, ended, -⟩ := program_reads eof lexemes #[]
  have accepts : Accepts (Parser.program eof (enoughFuel lexemes)) 0 0 lexemes program
      occurrences [] := program_accepts form
  have reached := accepts #[]
  rw [List.append_nil] at reached
  unfold parseLexemes EStateM.run
  rcases reached with given | ⟨halted, out⟩
  · rw [given]
  · cases ended.symm.trans out

/-- Without an error of the lexer a text is read as its lexemes are. -/
theorem parse_of_lexed {text : String} (lexed : lexErrorsOf text = []) :
    parse text = parseLexemes text.utf8ByteSize (lexemesOf text) [] := by
  change parseLexemes text.utf8ByteSize (lexemesOf text) (lexErrorsOf text) = _
  rw [lexed]

/-- A program is read without an error exactly if it is the tree of the lexemes, where each `else`
belongs to the nearest `if`, and the lexer finds no error. -/
theorem parse_eq_iff (text : String) (program : Program) :
    parse text = ⟨program, []⟩ ↔
      lexErrorsOf text = [] ∧ Forms .nearest (lexemesOf text) program := by
  constructor
  · intro clean
    obtain ⟨given, last, ended, same, advances⟩ := parse_reads text
    rw [same] at clean
    obtain ⟨rfl, none⟩ := Parse.mk.inj clean
    obtain ⟨found, reported, -⟩ := advances.reported
    rw [none, List.nil_eq, List.append_eq_nil_iff] at reported
    have lexed : lexErrorsOf text = [] := reported.1
    refine ⟨lexed, last.nextId, ?_⟩
    have empty := Array.toList_eq_nil_iff.1 none
    exact program_forms ended (by simp [empty])
  · rintro ⟨lexed, forms⟩
    exact (parse_of_lexed lexed).trans (parseLexemes_of_forms forms)

/-- A text without errors has no error of the lexer, and its program is the tree of its lexemes. -/
theorem forms_of_clean {text : String} (clean : (parse text).errors = []) :
    lexErrorsOf text = [] ∧ Forms .nearest (lexemesOf text) (parse text).program :=
  (parse_eq_iff text (parse text).program).1 (by rw [← clean])

/-- The texts that are read without an error are those in which the lexer finds no error and whose
lexemes form a program of the grammar, and what is read is the tree of the program in which each
`else` belongs to the nearest `if`. -/
theorem parse_recognizes (text : String) :
    ((parse text).errors = [] ↔
      lexErrorsOf text = [] ∧ ∃ program, Forms .any (lexemesOf text) program) ∧
    ∀ program, (parse text).errors = [] ∧ (parse text).program = program ↔
      lexErrorsOf text = [] ∧ Forms .nearest (lexemesOf text) program := by
  have reads (program : Program) :
      (parse text).errors = [] ∧ (parse text).program = program ↔ parse text = ⟨program, []⟩ := by
    constructor
    · rintro ⟨none, rfl⟩
      rw [← none]
    · intro same
      rw [same]
      exact ⟨rfl, rfl⟩
  refine ⟨?_, fun program => (reads program).trans (parse_eq_iff text program)⟩
  rw [← forms_nearest_iff]
  constructor
  · intro none
    have same := (reads _).1 ⟨none, rfl⟩
    obtain ⟨lexed, form⟩ := (parse_eq_iff text _).1 same
    exact ⟨lexed, _, form⟩
  · rintro ⟨lexed, program, form⟩
    rw [(parse_eq_iff text program).2 ⟨lexed, form⟩]

end Lox.Parser
