import Lox.Proofs.Label.Places
import Lox.Proofs.Label.Reading
import Lox.Proofs.Layout.Lexemes
import Lox.Proofs.Layout.Statements
import Lox.Proofs.Run.Phases

namespace Lox

open Report Text

/-- Only where something is missing, or where a list is too long, an error can be at the end of a
text. -/
def Error.MeetsEnd (error : Error) : Prop :=
  (∃ expected, error = .unexpectedEnd expected) ∨ ∃ listed limit, error = .tooMany listed limit

/-- An error is found at some characters of a text, or at the end of the text if it can be there. -/
inductive Error.FoundIn (text : String) (error : Located Error) : Prop
  | chars (chars : List Char) (occupies : Occupies text.toList error.span chars)
  | ends (same : error.span = .empty text.utf8ByteSize) (meets : error.item.MeetsEnd)

namespace Parser

/-- An error that is placed among the lexemes of a text is found in the text. -/
theorem Placed.foundIn {text : String} {error : Located Error}
    (placed : Placed (lexemesOf text) text.utf8ByteSize error) : Error.FoundIn text error := by
  cases placed with
  | lexeme among same =>
      obtain ⟨chars, occupies⟩ := lexemesOf_occupies among
      exact .chars chars (same ▸ occupies)
  | ends same early =>
      refine .ends same (early.imp id ?_)
      rintro ⟨listed, same⟩
      exact ⟨listed, listLimit, same⟩

/-- No lexeme stands at the empty span of the end. -/
theorem lexemesOf_apart (text : String) (eof : Nat) :
    ∀ lexeme ∈ lexemesOf text, lexeme.span ≠ .empty eof := by
  intro lexeme given ends
  have proper := (lexemesOf_inOrder text).proper lexeme given
  rw [ends] at proper
  exact Nat.lt_irrefl eof proper

/-- The parser reads the lexemes of a text, and its errors are behind those of the lexer. -/
theorem parse_parts (text : String) :
    parse text = ⟨(parseLexemes text.utf8ByteSize (lexemesOf text) []).program,
      lexErrorsOf text ++ (parseLexemes text.utf8ByteSize (lexemesOf text) []).errors⟩ :=
  parseLexemes_errors (lexemesOf_apart text text.utf8ByteSize) (lexErrorsOf text)

/-- The lexer and the parser report errors at their places. -/
theorem parse_foundIn {text : String} {error : Located Error} (given : error ∈ (parse text).errors) :
    Error.FoundIn text error := by
  rw [parse_parts] at given
  rcases List.mem_append.1 given with lexed | read
  · obtain ⟨chars, occupies⟩ := lexErrorsOf_occupies lexed
    exact .chars chars occupies
  · exact ((parseLexemes_laidOut (lexemesOf_inOrder text) _).2 error read).foundIn

/-- The statements of a text follow one another, and they are laid out. -/
theorem parse_inSequence (text : String) :
    ∃ last, Stmt.InSequence (lexemesOf text) 0 last (parse text).program := by
  rw [parse_parts]
  exact (parseLexemes_laidOut (lexemesOf_inOrder text) text.utf8ByteSize).1

/-- Every span of a tree takes up characters of its text. -/
theorem parse_spans {text : String} {span : Span}
    (given : span ∈ Stmt.spansAll (parse text).program) :
    ∃ chars, Occupies text.toList span chars := by
  obtain ⟨last, sequence⟩ := parse_inSequence text
  have laid : Stmt.LaidOutIn (lexemesOf text) ⟨0, last⟩ _ :=
    sequence.laidOutIn (Nat.le_refl _) (Nat.le_refl _)
  exact occupies_of_bounded (laid.spans (lexemesOf_inOrder text) span given)

end Parser

/-- A run ends with an error exactly when it is halted by it. -/
theorem Ending.error?_eq_some {ending : Ending} {error : Located Error} :
    ending.error? = some error ↔ ending = .halted (.error error) := by
  constructor
  · intro same
    unfold Ending.error? at same
    split at same <;> cases same
    rfl
  · rintro rfl
    rfl

/-- Every error of a run is found in its text. -/
theorem run_foundIn {fuel : Nat} {clock : Nat → Float} {output : Sink} {text : String}
    {error : Located Error} (given : error ∈ (run fuel clock output text).errors) :
    Error.FoundIn text error := by
  by_cases clean : (parse text).errors = []
  · rw [run_of_clean clean] at given
    have inside : error.span ∈ Stmt.spansAll (parse text).program := by
      rcases List.mem_append.1 given with resolved | aborting
      · exact resolve_places resolved
      · exact interpret_places (Ending.error?_eq_some.1 (Option.mem_toList.1 aborting))
    obtain ⟨chars, occupies⟩ := Parser.parse_spans inside
    exact .chars chars occupies
  · rw [run_of_wrong clean] at given
    exact Parser.parse_foundIn given

/-- An error points at real text: both ends of its span fall between characters, its context is the
lexeme there or the end of the text, and its line is told by the line breaks before it. -/
structure PointsAtText (source : Source) (error : Located Error) : Prop where
  start : Boundary source.chars error.span.start
  stop : Boundary source.chars error.span.stop
  within : error.span.stop ≤ source.text.utf8ByteSize
  shown :
    error.span.start < error.span.stop ∧
        (∃ lexeme, lexeme ≠ [] ∧ slice? source.chars error.span = some lexeme ∧
          (Notice.of source error).context = " at '" ++ String.ofList lexeme ++ "'") ∨
      error.span = .empty source.text.utf8ByteSize ∧ error.item.MeetsEnd ∧
        (Notice.of source error).context = " at end"
  atEnd : (Notice.of source error).context = " at end" ↔ error.span.start = error.span.stop
  line : ∀ before after, source.chars = before ++ after → byteLength before = error.span.start →
    (Notice.of source error).line = 1 + before.count '\n'

/-- The report of an error that is found in the text points at its characters. -/
theorem Error.FoundIn.points {source : Source} {error : Located Error}
    (found : Error.FoundIn source.text error) : PointsAtText source error := by
  have line (before after : List Char) (split : source.chars = before ++ after)
      (same : byteLength before = error.span.start) :
      (Notice.of source error).line = 1 + before.count '\n' := by
    change lineNumber source.chars error.span.start = _
    rw [split, ← same, lineNumber_append]
  cases found with
  | chars lexeme occupies =>
      have proper := occupies.proper
      have context : contextOf source error.span = " at '" ++ String.ofList lexeme ++ "'" :=
        contextOf_chars occupies
      have within := occupies.le
      rw [byteLength_toList] at within
      have slice : slice? source.chars error.span = some lexeme := by
        obtain ⟨-, before, after, split, same⟩ := occupies
        rw [same, Source.chars, split, slice?_append]
      refine ⟨occupies.start, occupies.stop, within,
        .inl ⟨proper, lexeme, occupies.some, slice, context⟩, ?_, line⟩
      refine iff_of_false (fun ends => ?_) (Nat.ne_of_lt proper)
      have same := congrArg String.toList (context.symm.trans ends)
      simp at same
  | ends same meets =>
      have total : Boundary source.chars source.text.utf8ByteSize :=
        ⟨source.chars, [], (List.append_nil _).symm, byteLength_toList source.text⟩
      have context : contextOf source error.span = " at end" := by
        rw [same]
        exact contextOf_end source
      refine ⟨?_, ?_, ?_, .inr ⟨same, meets, context⟩, iff_of_true context ?_, line⟩
      · rw [same]
        exact total
      · rw [same]
        exact total
      · rw [same]
        exact Nat.le_refl _
      · rw [same]
        rfl

/-- Every error that a run reports points at real text of its source. -/
theorem run_pointsAtText {fuel : Nat} {clock : Nat → Float} {output : Sink} {source : Source}
    {error : Located Error} (given : error ∈ (run fuel clock output source.text).errors) :
    PointsAtText source error := (run_foundIn given).points

/-- A source with a character of two bytes that forms no token. -/
def accentSource : Source := ⟨"accent", "\nvar é;"⟩

/-- An error at a character of two bytes is reported with the whole character. -/
theorem run_pointsAtText_accent :
    let error : Located Error := ⟨.unexpectedInput "é", ⟨5, 7⟩⟩
    error ∈ (run 0 (fun _ => 0) .unlimited accentSource.text).errors ∧
      PointsAtText accentSource error := by
  have given : (⟨.unexpectedInput "é", ⟨5, 7⟩⟩ : Located Error) ∈
      (run 0 (fun _ => 0) .unlimited accentSource.text).errors := by
    decide +kernel
  exact ⟨given, run_pointsAtText given⟩

end Lox
