import Lox.Proofs.Label.Erasing
import Lox.Proofs.Label.Reading
import Lox.Proofs.Layout.Reports
import Lox.Proofs.Lexing.Tokenization

namespace Lox

namespace Token

section
variable {pieces : List (Located Piece)} {given : List Item}

/-- Gathered pieces make an item that is an error. -/
theorem Gathers.error? {group : List (Located Piece)} {item : Item}
    (gathered : Gathers group item) : item.error? ≠ none := by
  cases gathered <;> exact nofun

/-- Items without an error are made of pieces without one. -/
theorem Groups.clean (groups : Groups pieces given) (clean : ∀ item ∈ given, item.error? = none) :
    ∀ piece ∈ pieces, isErrorPiece piece = false := by
  induction groups with
  | nil => exact nofun
  | blank blank _ ih => exact List.forall_mem_cons.2 ⟨not_error_of_blank blank, ih clean⟩
  | token _ ih => exact List.forall_mem_cons.2 ⟨rfl, ih (List.forall_mem_cons.1 clean).2⟩
  | error gathered | leftover gathered =>
      exact absurd (List.forall_mem_cons.1 clean).1 gathered.error?

end

end Token

namespace Parser

open Token

/-- The lexemes of a text without errors have the tokens of their texts. -/
theorem lexeme_spelled {text : String} (clean : lexErrorsOf text = []) {lexeme : Lexeme}
    (given : lexeme ∈ lexemesOf text) : Spelling lexeme.token lexeme.text.toList := by
  obtain ⟨item, among, same⟩ := List.mem_filterMap.1 given
  obtain ⟨lexeme, rfl⟩ : ∃ lexeme, item = .lexeme lexeme := by
    cases item with
    | lexeme lexeme => exact ⟨lexeme, rfl⟩
    | error error => cases same
  cases same
  have scans := pieces_scans 0 text.toList
  have groups := groups_of_scans scans
  have valid := groups.clean (List.filterMap_eq_nil_iff.1 clean)
  obtain ⟨before, group, after, split, made⟩ := groups.parts.of_item among
  rcases made.cases with ⟨piece, token, rfl, kind, same⟩ | ⟨-, errors⟩
  · cases same
    rw [split] at scans
    exact (munched_of_scans scans kind).spelled
  · obtain ⟨piece, inside⟩ := List.exists_mem_of_ne_nil group made.ne_nil
    have fine := valid piece (by simp [split, inside])
    cases fine.symm.trans (errors piece inside)

/-- Lexemes with the same texts only stand at other places. -/
theorem exists_move (eof other : Nat) {first second : List Lexeme} (inOrder : InOrder first)
    (apart : ∀ lexeme ∈ first, lexeme.span.start ≠ eof)
    (spelled : ∀ lexeme ∈ first, Spelling lexeme.token lexeme.text.toList)
    (also : ∀ lexeme ∈ second, Spelling lexeme.token lexeme.text.toList)
    (same : first.map Lexeme.text = second.map Lexeme.text) :
    ∃ move : Move, move.first = 0 ∧ move.starts eof = other ∧ move.stops 0 = 0 ∧
      first.map move.lexeme = second := by
  induction first generalizing second with
  | nil =>
      obtain rfl := List.map_eq_nil_iff.1 same.symm
      exact ⟨⟨fun _ => other, fun _ => 0, 0⟩, rfl, rfl, rfl, rfl⟩
  | cons lexeme rest ih =>
      obtain ⟨given, others, rfl, text, texts⟩ := List.map_eq_cons_iff.1 same.symm
      obtain ⟨proper, ordered⟩ := inOrder
      obtain ⟨later, ordered⟩ := List.pairwise_cons.1 ordered
      obtain ⟨move, first, ends, begins, moved⟩ :=
        ih ⟨(List.forall_mem_cons.1 proper).2, ordered⟩ (List.forall_mem_cons.1 apart).2
          (List.forall_mem_cons.1 spelled).2 (List.forall_mem_cons.1 also).2 texts.symm
      have longer := (List.forall_mem_cons.1 proper).1
      refine ⟨⟨Function.update move.starts lexeme.span.start given.span.start,
        Function.update move.stops lexeme.span.stop given.span.stop, 0⟩, rfl, ?_, ?_, ?_⟩
      · exact (Function.update_of_ne (List.forall_mem_cons.1 apart).1.symm _ _).trans ends
      · exact (Function.update_of_ne (by omega) _ _).trans begins
      · have token : given.token = lexeme.token := by
          have left := (List.forall_mem_cons.1 also).1
          rw [text] at left
          exact left.unique (List.forall_mem_cons.1 spelled).1
        rw [List.map_cons, ← moved]
        congr 1
        · simp [Move.lexeme, Move.relabeling, ← text, ← token]
        · refine List.map_congr_left fun next among => ?_
          have behind := later next among
          have further := (List.forall_mem_cons.1 proper).2 next among
          simp only [Move.lexeme, Move.relabeling,
            Function.update_of_ne (show next.span.start ≠ lexeme.span.start by omega),
            Function.update_of_ne (show next.span.stop ≠ lexeme.span.stop by omega)]

/-- A text is read like lexemes that have the same texts, apart from spans. -/
theorem parse_of_lexemes {eof : Nat} {lexemes : List Lexeme} {text : String}
    (inOrder : InOrder lexemes) (apart : ∀ lexeme ∈ lexemes, lexeme.span.start ≠ eof)
    (spelled : ∀ lexeme ∈ lexemes, Spelling lexeme.token lexeme.text.toList)
    (clean : lexErrorsOf text = [])
    (same : lexemes.map Lexeme.text = (lexemesOf text).map Lexeme.text) :
    ∃ relabeling : Relabeling, relabeling.ids = id ∧
      (parse text).program = relabeling.stmts (parseLexemes eof lexemes []).program ∧
      (parse text).errors.map Located.item =
        (parseLexemes eof lexemes []).errors.map Located.item := by
  obtain ⟨move, counts, ends, begins, moved⟩ := exists_move eof text.utf8ByteSize inOrder apart
    spelled (fun _ => lexeme_spelled clean) same
  have beyond : ∀ lexeme ∈ lexemes, lexeme.span ≠ .empty eof := fun lexeme given empty =>
    apart lexeme given (congrArg Span.start empty)
  have read := parseLexemes_moved move beyond begins counts [] []
  rw [ends, moved] at read
  rw [parse_of_lexed clean]
  refine ⟨move.relabeling, ?_, congrArg Parse.program read, ?_⟩
  · simp only [Move.relabeling, counts, Nat.zero_add]
    rfl
  · rw [show parseLexemes text.utf8ByteSize (lexemesOf text) [] = _ from read]
    simp only [List.nil_append, List.map_map]
    refine List.map_congr_left fun error _ => ?_
    simp only [Function.comp, Move.error]
    split <;> rfl

/-- No lexeme of a text starts at its end. -/
theorem lexemesOf_before (text : String) :
    ∀ lexeme ∈ lexemesOf text, lexeme.span.start ≠ text.utf8ByteSize := by
  intro lexeme given
  obtain ⟨chars, occupies⟩ := lexemesOf_occupies given
  have proper := occupies.proper
  have within := occupies.le
  rw [Text.byteLength_toList] at within
  omega

/-- A text is read like one whose lexemes have the same texts, apart from spans. -/
theorem parse_of_texts {first second : String} (clean : lexErrorsOf first = [])
    (also : lexErrorsOf second = [])
    (same : (lexemesOf first).map Lexeme.text = (lexemesOf second).map Lexeme.text) :
    ∃ relabeling : Relabeling, relabeling.ids = id ∧
      (parse second).program = relabeling.stmts (parse first).program ∧
      (parse second).errors.map Located.item = (parse first).errors.map Located.item := by
  rw [parse_of_lexed clean]
  exact parse_of_lexemes (lexemesOf_inOrder first) (lexemesOf_before first)
    (fun _ => lexeme_spelled clean) also same

end Parser

open Lox.Parser Report

/-- What stands between the lexemes of a text changes nothing but spans: neither what is read, nor
what a run prints, which errors are reported, which flags they set and how the run ends. -/
theorem run_ignoresSpacing {first second : String} (clean : lexErrorsOf first = [])
    (also : lexErrorsOf second = [])
    (same : (lexemesOf first).map Lexeme.text = (lexemesOf second).map Lexeme.text) :
    Relabeling.unspanned.stmts (parse second).program =
        Relabeling.unspanned.stmts (parse first).program ∧
      (parse second).errors.map Located.item = (parse first).errors.map Located.item ∧
      ∀ fuel clock output,
        Run.Alike (run fuel clock output first) (run fuel clock output second) ∧
        ∀ {ρ : Type} [Reporting ρ] (reporter : ρ) (name other : String),
          let diagnostics :=
            (DiagnosticsOf.new ⟨name, first⟩ reporter).reportAll (run fuel clock output first).errors
          let again :=
            (DiagnosticsOf.new ⟨other, second⟩ reporter).reportAll
              (run fuel clock output second).errors
          again.hadError = diagnostics.hadError ∧
            again.hadRuntimeError = diagnostics.hadRuntimeError := by
  obtain ⟨relabeling, keeps, program, errors⟩ := parse_of_texts clean also same
  have alike (fuel : Nat) (clock : Nat → Float) (output : Sink) :
      Run.Alike (run fuel clock output first) (run fuel clock output second) := by
    by_cases fine : (parse first).errors = []
    · have fine' : (parse second).errors = [] := by simpa [fine] using errors
      rw [run_eq_of_clean fine, run_eq_of_clean fine', program]
      exact .of_spans keeps fuel clock output _
    · have wrong : (parse second).errors ≠ [] := fun none =>
        fine (by simpa [none] using errors.symm)
      rw [run_of_wrong fine, run_of_wrong wrong]
      exact ⟨rfl, errors, rfl⟩
  refine ⟨by rw [program, Relabeling.unspanned_stmts keeps], errors, fun fuel clock output => ?_⟩
  exact ⟨alike fuel clock output, fun reporter name other =>
    (alike fuel clock output).flags _ _ reporter⟩

/-- A text on one line, with a comment behind it. -/
def denseText : String := "var a=1;print a+b;// done"

/-- The same lexemes on several lines. -/
def sparseText : String := "// start\n var a = 1 ;\n\tprint a // twice\n + b;\n"

/-- A run of the same program on one line and on several ones. -/
theorem run_ignoresSpacing_lines :
    lexErrorsOf denseText = [] ∧ lexErrorsOf sparseText = [] ∧
      (lexemesOf denseText).map Lexeme.text = (lexemesOf sparseText).map Lexeme.text ∧
      Run.Alike (run 100 (fun _ => 0) .unlimited denseText)
        (run 100 (fun _ => 0) .unlimited sparseText) := by
  have clean : lexErrorsOf denseText = [] := by decide +kernel
  have also : lexErrorsOf sparseText = [] := by decide +kernel
  have same : (lexemesOf denseText).map Lexeme.text = (lexemesOf sparseText).map Lexeme.text := by
    decide +kernel
  exact ⟨clean, also, same, ((run_ignoresSpacing clean also same).2.2 100 _ _).1⟩

end Lox
