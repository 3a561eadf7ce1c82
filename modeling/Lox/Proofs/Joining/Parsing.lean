import Lox.Proofs.Joining.Lexing
import Lox.Proofs.Layout.Reports
import Lox.Proofs.Syntax.Counting

namespace Lox

/-- Everything is some bytes further behind, and the numbers begin later. -/
def Relabeling.shift (offset first : Nat) : Relabeling :=
  ⟨Token.shiftSpan offset, fun id => first + id⟩

namespace Parser

open Lox.Computation Grammar Text

/-- The number of the occurrences of variables, each of which is read or assigned. -/
def occurrences (program : Program) : Nat := (Stmt.idsAll program).length

/-- A lexeme that is some bytes further behind. -/
def shiftLexeme (offset : Nat) (given : Lexeme) : Lexeme :=
  { given with span := Token.shiftSpan offset given.span }

/-- Lexemes further on lead with the same symbol. -/
theorem leading_shift (offset : Nat) (lexemes : List Lexeme) :
    leading (lexemes.map (shiftLexeme offset)) = leading lexemes := by
  cases lexemes <;> rfl

section
variable {first second : String}

/-- A text is without errors of the lexer when none of its items is one. -/
theorem lexErrorsOf_eq_nil :
    lexErrorsOf first = [] ↔ ∀ item ∈ Token.lex first, item.error? = none :=
  List.filterMap_eq_nil_iff

/-- Two texts with a line break between them have the lexemes of both. -/
theorem lexemesOf_break (clean : lexErrorsOf first = []) :
    lexemesOf (first ++ "\n" ++ second) =
      lexemesOf first ++ (lexemesOf second).map (shiftLexeme (first.utf8ByteSize + 1)) := by
  rw [lexemesOf, Token.lex_break first second (lexErrorsOf_eq_nil.1 clean), List.filterMap_append,
    List.filterMap_map, lexemesOf, lexemesOf, List.map_filterMap]
  congr 2
  funext item
  cases item <;> rfl

/-- Behind a text without errors of the lexer and a line break come those of another text. -/
theorem lexErrorsOf_break (clean : lexErrorsOf first = []) (number : Nat) :
    lexErrorsOf (first ++ "\n" ++ second) =
      (lexErrorsOf second).map (Relabeling.shift (first.utf8ByteSize + 1) number).located := by
  rw [lexErrorsOf, Token.lex_break first second (lexErrorsOf_eq_nil.1 clean),
    List.filterMap_append, List.filterMap_map, lexErrorsOf, List.map_filterMap]
  rw [lexErrorsOf] at clean
  rw [clean, List.nil_append]
  congr 1
  funext item
  cases item <;> rfl

end

/-- A program of the grammar is read before anything that does not start with an `else`. -/
theorem program_before {eof fuel stop first next : Nat} {lexemes rest : List Lexeme}
    {stmts whole : List Stmt} {errors : Array (Located Error)} {last : State}
    (form : Declarations .nearest first lexemes stmts next) (free : leading rest ≠ some .else)
    (read : program eof fuel ⟨lexemes ++ rest, stop, first, errors⟩ = .ok whole last) :
    ∃ left others, program eof left ⟨rest, endOf stop lexemes, next, errors⟩ = .ok others last ∧
      whole = stmts ++ others := by
  induction fuel generalizing stop first lexemes stmts whole with
  | zero => cases read
  | succ fuel ih =>
      cases form with
      | none => exact ⟨fuel + 1, whole, read, rfl⟩
      | @more _ middle _ front others stmt more declared declarations =>
          obtain ⟨lexeme, behind, same, -⟩ := declaration_opens declared
          have accepts : Accepts (declaration eof fuel) stop first front (some stmt) middle
              (others ++ rest) := (statementsAccepted eof fuel).declaration declared
            (declarations_ne_else declarations free)
          have inside : (front ++ (others ++ rest)).isEmpty = false := by simp [same]
          rw [List.append_assoc, program, bind_of_ok atEnd_apply] at read
          simp only [inside, Bool.false_eq_true, if_false] at read
          rcases accepts errors with given | ⟨stopped, out⟩
          · rw [bind_of_ok given] at read
            obtain ⟨following, reached, goes, ended⟩ := bind_eq_ok.1 read
            cases ended
            obtain ⟨left, tail, more, rfl⟩ := ih declarations goes
            exact ⟨left, tail, endOf_append stop front others ▸ more, rfl⟩
          · rw [bind_of_error out] at read
            cases read

/-- The move of the lexemes behind a line break. Nothing ends at the start of a text, so the end of
the last lexeme taken tells whether one has been taken already. -/
def following (offset last first : Nat) : Move :=
  ⟨(· + offset), fun stop => if stop = 0 then last else stop + offset, first⟩

section
variable {offset last first : Nat}

/-- A span that is not empty moves by the offset of the text that it is in. -/
theorem following_spans {span : Span} (proper : span.start < span.stop) :
    (following offset last first).relabeling.spans span =
      (Relabeling.shift offset first).spans span := by
  have some : span.stop ≠ 0 := by omega
  simp only [following, Move.relabeling, Relabeling.shift, Token.shiftSpan, if_neg some]

/-- An error that is found in a text moves with the text. -/
theorem following_error {text : String} {error : Located Error} (found : Error.FoundIn text error) :
    (following offset last first).error text.utf8ByteSize error =
      (Relabeling.shift offset first).located error := by
  unfold Move.error
  cases found with
  | chars chars occupies =>
      have proper := occupies.proper
      have apart : error.span ≠ .empty text.utf8ByteSize := fun ends => by
        rw [ends] at proper
        exact Nat.lt_irrefl _ proper
      rw [if_neg apart]
      exact congrArg (Located.mk error.item) (following_spans proper)
  | ends same _ =>
      rw [if_pos same]
      exact congrArg (Located.mk error.item) (by rw [same]; rfl)

end

/-- Behind a first text, the lexemes and the errors of a second one are where the move takes them. -/
theorem following_state {first second : String} (lexed : lexErrorsOf first = []) (next : Nat) :
    (following (first.utf8ByteSize + 1) (endOf 0 (lexemesOf first)) next).state second.utf8ByteSize
        [] ⟨lexemesOf second, 0, 0, (lexErrorsOf second).toArray⟩ =
      ⟨(lexemesOf second).map (shiftLexeme (first.utf8ByteSize + 1)), endOf 0 (lexemesOf first),
        next, (lexErrorsOf (first ++ "\n" ++ second)).toArray⟩ := by
  have lexemes : ∀ lexeme ∈ lexemesOf second,
      (following (first.utf8ByteSize + 1) (endOf 0 (lexemesOf first)) next).lexeme lexeme =
        shiftLexeme (first.utf8ByteSize + 1) lexeme := fun lexeme given => by
    have proper := (lexemesOf_inOrder second).proper lexeme given
    exact congrArg (Lexeme.mk lexeme.token lexeme.text) (following_spans proper)
  have errors : ∀ error ∈ lexErrorsOf second,
      (following (first.utf8ByteSize + 1) (endOf 0 (lexemesOf first)) next).error
          second.utf8ByteSize error =
        (Relabeling.shift (first.utf8ByteSize + 1) next).located error := fun error given => by
    obtain ⟨chars, occupies⟩ := lexErrorsOf_occupies given
    exact following_error (.chars chars occupies)
  rw [lexErrorsOf_break lexed next, ← List.map_congr_left errors, ← List.map_congr_left lexemes]
  rfl

/-- The moved tree of a text is the shifted one. -/
theorem following_stmts (text : String) (offset last first : Nat) :
    (following offset last first).relabeling.stmts (parse text).program =
      (Relabeling.shift offset first).stmts (parse text).program :=
  Relabeling.stmts_congr _ (fun _ given => by
    obtain ⟨chars, occupies⟩ := parse_spans given
    exact following_spans occupies.proper) fun _ _ => rfl

/-- A text that is joined of two others by a line break is read like them, if the first one has no
error and the second one does not start with an `else`. -/
theorem parse_break {first second : String} (clean : (parse first).errors = [])
    (free : leading (lexemesOf second) ≠ some .else) :
    let shift := Relabeling.shift (first.utf8ByteSize + 1) (occurrences (parse first).program)
    parse (first ++ "\n" ++ second) =
      ⟨(parse first).program ++ shift.stmts (parse second).program,
        (parse second).errors.map shift.located⟩ := by
  intro shift
  obtain ⟨lexed, next, form⟩ := (parse_eq_iff first (parse first).program).1 (by rw [← clean])
  obtain rfl : occurrences (parse first).program = next := by
    have counted := form.counts.length
    rwa [Nat.zero_add] at counted
  let move := following (first.utf8ByteSize + 1) (endOf 0 (lexemesOf first))
    (occurrences (parse first).program)
  have size : (first ++ "\n" ++ second).utf8ByteSize = move.starts second.utf8ByteSize := by
    rw [String.utf8ByteSize_append, String.utf8ByteSize_append]
    exact Nat.add_comm _ _
  obtain ⟨whole, last, read, given, -⟩ := parse_reads (first ++ "\n" ++ second)
  obtain ⟨stmts, after, also, other, -⟩ := parse_reads second
  rw [lexemesOf_break lexed, size] at read
  obtain ⟨left, others, goes, rfl⟩ := program_before form (by rwa [leading_shift]) read
  have mirrors : Mirrors move second.utf8ByteSize [] move.relabeling.stmts
      (program second.utf8ByteSize (enoughFuel (lexemesOf second)))
      (program (move.starts second.utf8ByteSize) left)
      ⟨lexemesOf second, 0, 0, (lexErrorsOf second).toArray⟩ :=
    program_mirrors _ _ (lexemesOf_apart second second.utf8ByteSize)
  unfold Mirrors at mirrors
  rw [following_state lexed, also, goes] at mirrors
  obtain ⟨-, rfl, rfl⟩ := mirrors
  have errors : after.errors.toList.map (move.error second.utf8ByteSize) =
      after.errors.toList.map shift.located := by
    refine List.map_congr_left fun error found => following_error ?_
    exact parse_foundIn (by rwa [other])
  have moved : move.relabeling.stmts stmts = shift.stmts stmts := by
    have tree := following_stmts second (first.utf8ByteSize + 1) (endOf 0 (lexemesOf first))
      (occurrences (parse first).program)
    rwa [other] at tree
  rw [given, other, moved, ← errors]
  simp [Move.state]

/-- A text that ends too early has its error at the end of the joined text. -/
theorem parse_break_early :
    (parse "var a = b;").errors = [] ∧ leading (lexemesOf "print a") ≠ some .else ∧
      (parse ("var a = b;" ++ "\n" ++ "print a")).errors =
        [⟨.unexpectedEnd "\";\"", .empty 18⟩] := by
  have clean : (parse "var a = b;").errors = [] := by decide +kernel
  have free : leading (lexemesOf "print a") ≠ some .else := by decide +kernel
  refine ⟨clean, free, ?_⟩
  rw [parse_break clean free]
  decide +kernel

end Parser

end Lox
