import Lox.Proofs.Lexical.Refinement
import Lox.Proofs.Renaming.Parsing
import Lox.Proofs.Renaming.References
import Lox.Proofs.Renaming.Resolving
import Lox.Proofs.Renaming.Running

namespace Lox

open Lox.Parser Report

/-- A lexeme with an identifier is the name at its span. -/
theorem Lexeme.of_identifier? {lexeme : Lexeme} {name : Name}
    (same : lexeme.identifier? = some name) :
    lexeme.token = .identifier name.item ∧ lexeme.span = name.span := by
  unfold identifier? at same
  split at same
  next token => exact Option.some.inj same ▸ ⟨token, rfl⟩
  all_goals cases same

namespace Grammar.Names

variable {lexemes : List Lexeme} {mentions : List Mention} (names : Names lexemes mentions)
include names

/-- A name that is mentioned is that of a lexeme. -/
theorem exists_lexeme {mention : Mention} (among : mention ∈ mentions) :
    ∃ lexeme ∈ lexemes, lexeme.token = .identifier mention.name.item := by
  have given := names.mem_iff.1 (List.mem_map_of_mem among)
  obtain ⟨lexeme, inside, same⟩ := List.mem_filterMap.1 given
  exact ⟨lexeme, inside, (Lexeme.of_identifier? same).1⟩

/-- Lexemes that follow one another are mentioned at different places. -/
theorem distinct (inOrder : InOrder lexemes) :
    (mentions.map fun mention => mention.name.span).Nodup := by
  have apart : lexemes.Pairwise fun first second => first.span ≠ second.span := by
    refine inOrder.ordered.imp_of_mem fun {first second} given _ behind same => ?_
    have proper := inOrder.proper first given
    rw [← same] at behind
    omega
  have identified : (lexemes.filterMap Lexeme.identifier?).Pairwise
      fun first second => first.span ≠ second.span := by
    refine apart.filterMap _ fun first second other name left next right => ?_
    rwa [← (Lexeme.of_identifier? left).2, ← (Lexeme.of_identifier? right).2]
  have places : (mentions.map fun mention => mention.name.span) =
      (mentions.map Mention.name).map Located.span := by
    rw [List.map_map]
    rfl
  rw [places, (names.map Located.span).nodup_iff]
  exact List.pairwise_map.2 identified

end Grammar.Names

/-- The renaming of a local declaration to a name that no lexeme of a text has fits the program. -/
theorem Renaming.of_text_fits {text : String} {declared : Name} {name : String}
    (clean : (parse text).errors = [])
    (isLocal : DeclaresLocally (parse text).program declared)
    (unused : ∀ lexeme ∈ lexemesOf text, lexeme.text ≠ name) :
    ∀ mention ∈ mentionsOf (parse text).program,
      (Renaming.of (parse text).program declared name).Fits mention := by
  obtain ⟨lexed, forms⟩ := forms_of_clean clean
  refine Renaming.of_fits isLocal (forms.names.distinct (lexemesOf_inOrder text)) ?_
  intro mention among same
  obtain ⟨lexeme, given, token⟩ := forms.names.exists_lexeme among
  have spelled := lexeme_spelled lexed given
  rw [token, same] at spelled
  exact unused lexeme given (String.toList_inj.1 spelled.word_eq)

/-- A program of the grammar that is renamed runs alike, with frames and distances. -/
theorem Run.of_renamed {attachment : Grammar.Attachment} {lexemes : List Lexeme}
    {program : Program} {new : Renaming} (forms : Grammar.Forms attachment lexemes program)
    (resolved : (resolve program).errors = [])
    (fits : ∀ mention ∈ mentionsOf program, new.Fits mention) (fuel : Nat) (clock : Nat → Float)
    (output : Sink) :
    Run.of fuel clock output (new.stmts program) = Run.of fuel clock output program := by
  have same := Resolution.resolve_renamed forms.proper fits resolved
  rw [Lexical.run_of_eq (forms.renamed new) (same ▸ resolved), Lexical.run_of_eq forms resolved]
  exact Lexical.run_renamed fits output

/-- A local variable or parameter may have any name that the text does not use. The declaration and
exactly the occurrences that refer to it get the new name, and each name is about the same
declaration as before. The renamed text is read and resolved without errors, with the same
distances, and it prints the same, reports the same errors, sets the same flags and ends in the same
way. -/
theorem run_ignoresLocalName {text : String} {declared : Name} {name : String}
    (clean : (parse text).errors = []) (resolved : (resolve (parse text).program).errors = [])
    (isLocal : DeclaresLocally (parse text).program declared)
    (spelled : Token.Spelling (.identifier name) name.toList)
    (unused : ∀ lexeme ∈ lexemesOf text, lexeme.text ≠ name) :
    let new := Renaming.of (parse text).program declared name
    let other := new.text text
    (∀ mention ∈ mentionsOf (parse text).program,
        (mention.name.span ∈ new.places ↔ mention.about = some declared.span)) ∧
      mentionsOf (new.stmts (parse text).program) =
        (mentionsOf (parse text).program).map new.mention ∧
      (parse other).errors = [] ∧
      Relabeling.unspanned.stmts (parse other).program =
        Relabeling.unspanned.stmts (new.stmts (parse text).program) ∧
      (resolve (parse other).program).errors = [] ∧
      (resolve (parse other).program).distances = (resolve (parse text).program).distances ∧
      ∀ fuel clock output,
        Run.Alike (run fuel clock output text) (run fuel clock output other) ∧
        ∀ {ρ : Type} [Reporting ρ] (reporter : ρ) (file otherFile : String),
          let diagnostics :=
            (DiagnosticsOf.new ⟨file, text⟩ reporter).reportAll (run fuel clock output text).errors
          let again :=
            (DiagnosticsOf.new ⟨otherFile, other⟩ reporter).reportAll
              (run fuel clock output other).errors
          again.hadError = diagnostics.hadError ∧
            again.hadRuntimeError = diagnostics.hadRuntimeError := by
  intro new other
  obtain ⟨lexed, forms⟩ := forms_of_clean clean
  have fits : ∀ mention ∈ mentionsOf (parse text).program, new.Fits mention :=
    Renaming.of_text_fits clean isLocal unused
  obtain ⟨relabeling, keeps, program, fine⟩ := parse_renamed new clean spelled
  have resolution : resolve (parse other).program =
      ⟨(resolve (parse text).program).distances, []⟩ := by
    rw [program, Relabeling.resolve_spans keeps,
      Resolution.resolve_renamed forms.proper fits resolved, resolved]
    rfl
  have alike (fuel : Nat) (clock : Nat → Float) (output : Sink) :
      Run.Alike (run fuel clock output text) (run fuel clock output other) := by
    rw [run_eq_of_clean clean, run_eq_of_clean fine, program,
      ← Run.of_renamed forms resolved fits]
    exact .of_spans keeps fuel clock output _
  refine ⟨fun mention among => (fits mention among).chosen, mentionsOf_renamed fits, fine, ?_, ?_,
    ?_, fun fuel clock output => ?_⟩
  · rw [program, Relabeling.unspanned_stmts keeps]
  · rw [resolution]
  · rw [resolution]
  · exact ⟨alike fuel clock output, fun reporter file otherFile =>
      (alike fuel clock output).flags _ _ reporter⟩

/-- A function that keeps a variable, and an inner variable of the same name. -/
def keeperText : String :=
  "fun f(a) \x7b var b = a; fun g() \x7b return b; \x7d \x7b var b = 7; print b; \x7d " ++
    "return g; \x7d print f(2)();"

/-- The variable that the function keeps has another name, and the inner one has not. -/
def renamedKeeperText : String :=
  "fun f(a) \x7b var kept = a; fun g() \x7b return kept; \x7d \x7b var b = 7; print b; \x7d " ++
    "return g; \x7d print f(2)();"

/-- The function runs as before when its variable is renamed. -/
theorem run_ignoresLocalName_keeper :
    (parse keeperText).errors = [] ∧ (resolve (parse keeperText).program).errors = [] ∧
      DeclaresLocally (parse keeperText).program ⟨"b", ⟨15, 16⟩⟩ ∧
      Token.Spelling (.identifier "kept") "kept".toList ∧
      (∀ lexeme ∈ lexemesOf keeperText, lexeme.text ≠ "kept") ∧
      (Renaming.of (parse keeperText).program ⟨"b", ⟨15, 16⟩⟩ "kept").text keeperText =
        renamedKeeperText ∧
      (resolve (parse renamedKeeperText).program).distances =
        (resolve (parse keeperText).program).distances ∧
      Run.Alike (run 100 (fun _ => 0) .unlimited keeperText)
        (run 100 (fun _ => 0) .unlimited renamedKeeperText) := by
  have clean : (parse keeperText).errors = [] := by decide +kernel
  have resolved : (resolve (parse keeperText).program).errors = [] := by decide +kernel
  have isLocal : DeclaresLocally (parse keeperText).program ⟨"b", ⟨15, 16⟩⟩ := by decide +kernel
  have spelled : Token.Spelling (.identifier "kept") "kept".toList :=
    .identifier (Token.isWord_iff.2 ⟨rfl, List.all_eq_true.1 rfl⟩) fun symbol => by
      cases symbol <;> decide
  have unused : ∀ lexeme ∈ lexemesOf keeperText, lexeme.text ≠ "kept" := by decide +kernel
  have same : (Renaming.of (parse keeperText).program ⟨"b", ⟨15, 16⟩⟩ "kept").text keeperText =
      renamedKeeperText := by
    decide +kernel
  obtain ⟨-, -, -, -, -, distances, runs⟩ :=
    run_ignoresLocalName clean resolved isLocal spelled unused
  rw [same] at distances runs
  exact ⟨clean, resolved, isLocal, spelled, unused, same, distances, (runs 100 _ _).1⟩

end Lox
