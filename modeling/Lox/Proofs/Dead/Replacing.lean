import Lox.Proofs.Dead.Running
import Lox.Proofs.Dead.Splicing
import Lox.Proofs.Joining.Spelling
import Lox.Proofs.Sugar.Loops

namespace Lox

namespace Grammar

open Lox.Parser (Spells leading)
open Relabeling (unlabeled)

variable {before returned dead after : List Lexeme}

/-- Lexemes between others are those of the declarations behind a `return` in the same list: the
`return` stands in a list, and the list ends behind the declarations. -/
structure DeadCode (before returned dead after : List Lexeme) : Prop where
  listed : AtDeclaration before
  returns : Returns returned
  follows : Listed dead
  closed : Closed after

/-- What is replaced starts behind a mark. -/
theorem DeadCode.starts (stands : DeadCode before returned dead after) :
    EndsDeclaration (before ++ returned) := by
  obtain ⟨_, _, _, _, form, -⟩ := stands.returns
  exact form.ends.append before

/-- What is replaced ends with a mark, or it is empty. -/
theorem DeadCode.stops (stands : DeadCode before returned dead after) :
    EndsDeclaration (before ++ returned ++ dead) := by
  obtain ⟨_, _, _, form⟩ := stands.follows
  rcases form.ends with rfl | ends
  · rw [List.append_nil]
    exact stands.starts
  · exact ends.append _

/-- What gives back a value starts with the keyword, and no `else` goes on with it. -/
theorem Returns.stands (returns : Returns returned) :
    ∃ keyword tail stmt, returned = keyword :: tail ∧ Spells .return keyword ∧
      ∀ context, StatementBefore context returned stmt := by
  obtain ⟨first, stmt, dangling, next, form, gives⟩ := returns
  cases form with
  | giveBack opens given closes =>
      exact ⟨_, _, _, rfl, opens, .of_closed (.giveBack opens given closes)⟩
  | forLoop => cases (countingLoop_givesBack ..).symm.trans gives
  | expression evaluated => cases evaluated with | evaluate => cases gives
  | branch | alternative | print | loop | block => cases gives

/-- Behind a list stands a brace, if one is put behind the end. -/
theorem Closed.brace (closed : Closed after) :
    ∃ brace rest, after ++ [Symbol.rightBrace.lexeme] = brace :: rest ∧
      Spells .rightBrace brace := by
  rcases closed with rfl | follows
  · exact ⟨_, [], rfl, rfl⟩
  · cases after with
    | nil => cases follows
    | cons brace rest => exact ⟨brace, _, rfl, Parser.symbol?_eq_some.1 follows⟩

/-- Where a list of declarations ends is certain. -/
theorem Listed.unique {others further : List Lexeme} (listed : Listed dead) (also : Listed others)
    (closed : Closed after) (ends : Closed further) (same : dead ++ after = others ++ further) :
    dead = others ∧ after = further := by
  obtain ⟨first, stmts, next, form⟩ := listed
  obtain ⟨start, given, last, formed⟩ := also
  obtain ⟨brace, rest, behind, closes⟩ := closed.brace
  obtain ⟨other, beyond, further', closes'⟩ := ends.brace
  -- In braces both lists are statements.
  obtain ⟨opening, opens⟩ : ∃ opening, Spells .leftBrace opening :=
    ⟨Symbol.leftBrace.lexeme, rfl⟩
  have block : StatementBefore rest (opening :: (dead ++ [brace])) _ :=
    .of_closed (.block opens form closes) rest
  have again : StatementBefore beyond (opening :: (others ++ [other])) _ :=
    .of_closed (.block opens formed closes') beyond
  have whole : opening :: (dead ++ [brace]) ++ rest = opening :: (others ++ [other]) ++ beyond := by
    have braced := congrArg (· ++ [Symbol.rightBrace.lexeme]) same
    simp only [List.append_assoc, behind, further'] at braced
    simpa using braced
  obtain ⟨rfl, -⟩ := block.unique again whole
  obtain ⟨rfl, -⟩ := List.append_inj' (List.cons.inj (List.append_cancel_right whole)).2 rfl
  exact ⟨rfl, List.append_cancel_left same⟩

/-- Which lexemes are dead is certain. -/
theorem DeadCode.unique {returned' dead' after' : List Lexeme}
    (stands : DeadCode before returned dead after)
    (also : DeadCode before returned' dead' after')
    (same : returned ++ (dead ++ after) = returned' ++ (dead' ++ after')) :
    returned = returned' ∧ dead = dead' ∧ after = after' := by
  obtain ⟨_, _, _, -, -, first⟩ := stands.returns.stands
  obtain ⟨_, _, _, -, -, second⟩ := also.returns.stands
  obtain ⟨behind, -⟩ := (first _).unique (second _) same
  exact ⟨List.append_cancel_right (behind ▸ same),
    stands.follows.unique also.follows stands.closed also.closed behind⟩

/-- In a program the tokens of other declarations may stand in the place of dead ones. -/
theorem DeadCode.replaced_makes (stands : DeadCode before returned dead after) {program : Program}
    {occurrences : Nat}
    (form : Declarations .nearest 0 (before ++ (returned ++ (dead ++ after))) program occurrences)
    {tokens : List Token} {stmts : List Stmt} (makes : MakesDeclarations tokens stmts) :
    PrunesDeclarations (before.map Lexeme.token ++
      (returned.map Lexeme.token ++ (tokens ++ after.map Lexeme.token))) (unlabeled.stmts program) := by
  obtain ⟨keyword, tail, -, rfl, opens, -⟩ := stands.returns.stands
  obtain ⟨given, gone, behind, same, returns, follows, closed, replaced⟩ : Cuts [] _ _ _ :=
    form.cuts opens (.inl rfl) stands.listed rfl
  rw [List.append_nil] at closed
  obtain ⟨rfl, rfl, rfl⟩ := stands.unique ⟨stands.listed, returns, follows, closed⟩ same
  exact replaced tokens stmts makes

end Grammar

open Lox.Grammar Lox.Parser Relabeling Report

section
variable {before returned dead after : List Lexeme}

/-- Every `return` that stands in a list of a text without errors has dead code behind it, up to the
end of the list. -/
theorem exists_deadCode {text : String} {keyword : Lexeme} {tail : List Lexeme}
    (clean : (parse text).errors = []) (opens : Spells .return keyword)
    (listed : AtDeclaration before) (contains : lexemesOf text = before ++ keyword :: tail) :
    ∃ returned dead after, keyword :: tail = returned ++ (dead ++ after) ∧
      DeadCode before returned dead after := by
  obtain ⟨-, occurrences, form⟩ := forms_of_clean clean
  obtain ⟨returned, dead, after, same, returns, follows, closed, -⟩ : Cuts [] _ _ _ :=
    form.cuts opens (.inl rfl) listed contains
  rw [List.append_nil] at closed
  exact ⟨returned, dead, after, same, listed, returns, follows, closed⟩

/-- A text with other declarations in the place of dead ones is read to a program that is pruned to
the same, apart from labels. -/
theorem parse_replaced {first other second : String} (clean : (parse first).errors = [])
    (stands : DeadCode before returned dead after)
    (contains : lexemesOf first = before ++ (returned ++ (dead ++ after)))
    (fine : (parse other).errors = []) (lexed : lexErrorsOf second = [])
    (same : (lexemesOf second).map Lexeme.text =
      (before ++ (returned ++ (lexemesOf other ++ after))).map Lexeme.text) :
    (parse second).errors = [] ∧
      Stmt.prunedAll (unlabeled.stmts (parse second).program) =
        Stmt.prunedAll (unlabeled.stmts (parse first).program) := by
  obtain ⟨clear, occurrences, form⟩ := forms_of_clean clean
  obtain ⟨apart, inner, declarations⟩ := forms_of_clean fine
  have spelled : ∀ lexeme ∈ before ++ (returned ++ (lexemesOf other ++ after)),
      Token.Spelling lexeme.token lexeme.text.toList := by
    intro lexeme given
    by_cases new : lexeme ∈ lexemesOf other
    · exact lexeme_spelled apart new
    · refine lexeme_spelled clear (contains ▸ ?_)
      simp only [List.mem_append] at given ⊢
      tauto
  have tokens := tokens_of_texts (fun _ => lexeme_spelled lexed) spelled same
  obtain ⟨given, makes, pruned⟩ := stands.replaced_makes (contains ▸ form) declarations.makes
  simp only [List.map_append] at tokens
  obtain ⟨program, next, formed, shaped⟩ := makes 0 (lexemesOf second) tokens
  have read := (parse_eq_iff second program).2 ⟨lexed, next, formed⟩
  rw [read]
  exact ⟨rfl, shaped ▸ pruned⟩

end

/-- The errors that are found while a program runs, without their spans. -/
def Run.failures (ran : Run) : List Error :=
  (ran.errors.map Located.item).filter fun error => error.phase = .runtime

/-- Two runs print the same, fail with the same errors and end in the same way, apart from spans.
What is wrong before they start may differ. -/
structure Run.EndsAlike (first second : Run) : Prop where
  output : second.output = first.output
  failures : second.failures = first.failures
  ending : unspanned.ending second.ending = unspanned.ending first.ending

namespace Run

/-- A run sets the flag of runtime errors when it fails. -/
theorem hadRuntimeError_eq {ρ : Type} [Reporting ρ] (ran : Run) (source : Source) (reporter : ρ) :
    ((DiagnosticsOf.new source reporter).reportAll ran.errors).hadRuntimeError =
      !ran.failures.isEmpty := by
  rw [DiagnosticsOf.reportAll_hadRuntimeError, failures, Bool.eq_iff_iff]
  simp [DiagnosticsOf.new, List.filter_eq_nil_iff]

/-- A run fails with the error that ends it. -/
theorem failures_of (fuel : Nat) (clock : Nat → Float) (output : Sink) (program : Program) :
    (of fuel clock output program).failures =
      ((of fuel clock output program).ending.error?.map Located.item).toList.filter
        fun error => error.phase = .runtime := by
  have none : ((resolve program).errors.map Located.item).filter
      (fun error => error.phase = .runtime) = [] := by
    refine List.filter_eq_nil_iff.2 (List.forall_mem_map.2 fun error given => ?_)
    rw [Resolution.resolve_static program error given]
    decide
  rw [failures, of, List.map_append, List.filter_append, none, List.nil_append, Option.toList_map]

/-- Programs of different occurrences that are pruned to the same, apart from labels, end alike. -/
theorem EndsAlike.of_pruned {first second : Program} {lexemes others : List Lexeme}
    (forms : Forms .nearest lexemes first) (also : Forms .nearest others second)
    (same : Stmt.prunedAll (unlabeled.stmts second) = Stmt.prunedAll (unlabeled.stmts first))
    (fuel : Nat) (clock : Nat → Float) (output : Sink) :
    EndsAlike (.of fuel clock output first) (.of fuel clock output second) := by
  have different {lexemes : List Lexeme} {program : Program}
      (forms : Forms .nearest lexemes program) : (Stmt.idsAll (Stmt.prunedAll program)).Nodup := by
    obtain ⟨occurrences, form⟩ := forms
    exact form.counts.nodup.sublist (Stmt.prunedAll_ids program)
  rw [← stmts_pruned, ← stmts_pruned] at same
  obtain ⟨renumber, program⟩ := exists_renumbered same (different forms) (different also)
  have alike := Alike.of_renumbered program fuel clock output
  obtain ⟨ends, prints⟩ := Interpreter.execute_pruned forms.distinct fuel clock output
  obtain ⟨stops, writes⟩ := Interpreter.execute_pruned also.distinct fuel clock output
  have ending : unspanned.ending (of fuel clock output second).ending =
      unspanned.ending (of fuel clock output first).ending := by
    simpa only [of, ends, stops] using alike.ending
  refine ⟨?_, ?_, ending⟩
  · simpa only [of, prints, writes] using alike.output
  · rw [failures_of, failures_of, ← ending_item unspanned, ending, ending_item]

end Run

/-- What stands behind a `return` in a list does not matter. Behind every `return` that stands in a
list of a text that is read without errors there are the declarations up to the end of the list.
Others, from a text that is read without errors and is closed by a line break, may take their place.
Every text with these lexemes is read without errors, too. It prints the same, fails with the same
error and ends in the same way, whatever the resolution finds in the new declarations. -/
theorem run_ignoresDeadCode {first other : String} {before tail : List Lexeme} {keyword : Lexeme}
    (clean : (parse first).errors = []) (opens : Spells .return keyword)
    (listed : AtDeclaration before) (contains : lexemesOf first = before ++ keyword :: tail)
    (fine : (parse other).errors = []) :
    ∃ returned dead after, keyword :: tail = returned ++ (dead ++ after) ∧
      DeadCode before returned dead after ∧
      let texts := (before ++ (returned ++ (lexemesOf other ++ after))).map Lexeme.text
      (∃ head middle rest, first = head ++ middle ++ rest ∧
        head.utf8ByteSize = endOf 0 (before ++ returned) ∧
        (head ++ middle).utf8ByteSize = endOf 0 (before ++ (returned ++ dead)) ∧
        lexErrorsOf (head ++ (other ++ "\n" ++ rest)) = [] ∧
        (lexemesOf (head ++ (other ++ "\n" ++ rest))).map Lexeme.text = texts) ∧
      ∀ second, lexErrorsOf second = [] → (lexemesOf second).map Lexeme.text = texts →
        (parse second).errors = [] ∧ ∀ fuel clock output,
          Run.EndsAlike (run fuel clock output first) (run fuel clock output second) ∧
          ∀ {ρ : Type} [Reporting ρ] (reporter : ρ) (name renamed : String),
            ((DiagnosticsOf.new ⟨renamed, second⟩ reporter).reportAll
                (run fuel clock output second).errors).hadRuntimeError =
              ((DiagnosticsOf.new ⟨name, first⟩ reporter).reportAll
                (run fuel clock output first).errors).hadRuntimeError := by
  obtain ⟨returned, dead, after, place, stands⟩ := exists_deadCode clean opens listed contains
  rw [place] at contains
  refine ⟨returned, dead, after, place, stands, ?_, fun second lexed same => ?_⟩
  · have split : lexemesOf first = before ++ returned ++ (dead ++ after) := by
      rw [contains, List.append_assoc]
    obtain ⟨head, middle, rest, rfl, starts, stops⟩ := exists_part split
    obtain ⟨clear, same⟩ := lexemesOf_spliced (forms_of_clean clean).1 split stands.starts
      stands.stops starts stops (forms_of_clean fine).1
    refine ⟨head, middle, rest, rfl, starts, ?_, clear, ?_⟩
    · rw [stops, List.append_assoc]
    · rw [same, List.append_assoc]
  · obtain ⟨errors, pruned⟩ := parse_replaced clean stands contains fine lexed same
    refine ⟨errors, fun fuel clock output => ?_⟩
    have alike : Run.EndsAlike (run fuel clock output first) (run fuel clock output second) := by
      rw [run_eq_of_clean clean, run_eq_of_clean errors]
      exact .of_pruned (forms_of_clean clean).2 (forms_of_clean errors).2 pruned fuel clock output
    refine ⟨alike, fun reporter name renamed => ?_⟩
    rw [Run.hadRuntimeError_eq, Run.hadRuntimeError_eq, alike.failures]

def beforeReturn : List Lexeme :=
  [⟨.symbol .var, "var", ⟨0, 3⟩⟩, ⟨.identifier "a", "a", ⟨4, 5⟩⟩, ⟨.symbol .equal, "=", ⟨6, 7⟩⟩,
    ⟨.symbol .true, "true", ⟨8, 12⟩⟩, ⟨.symbol .semicolon, ";", ⟨12, 13⟩⟩,
    ⟨.symbol .fun, "fun", ⟨14, 17⟩⟩, ⟨.identifier "f", "f", ⟨18, 19⟩⟩,
    ⟨.symbol .leftParen, "(", ⟨19, 20⟩⟩, ⟨.symbol .rightParen, ")", ⟨20, 21⟩⟩,
    ⟨.symbol .leftBrace, "\x7b", ⟨22, 23⟩⟩]

def returnKeyword : Lexeme := ⟨.symbol .return, "return", ⟨24, 30⟩⟩

def returnOuter : List Lexeme :=
  [returnKeyword, ⟨.identifier "a", "a", ⟨31, 32⟩⟩, ⟨.symbol .semicolon, ";", ⟨32, 33⟩⟩]

def behindReturn : List Lexeme :=
  [⟨.symbol .print, "print", ⟨34, 39⟩⟩, ⟨.identifier "a", "a", ⟨40, 41⟩⟩,
    ⟨.symbol .semicolon, ";", ⟨41, 42⟩⟩]

def afterReturn : List Lexeme :=
  [⟨.symbol .rightBrace, "\x7d", ⟨43, 44⟩⟩, ⟨.symbol .print, "print", ⟨45, 50⟩⟩,
    ⟨.identifier "f", "f", ⟨51, 52⟩⟩, ⟨.symbol .leftParen, "(", ⟨52, 53⟩⟩,
    ⟨.symbol .rightParen, ")", ⟨53, 54⟩⟩, ⟨.symbol .semicolon, ";", ⟨54, 55⟩⟩]

/-- A function gives back the value of an outer variable, and does not print it then. -/
def returningText : String := "var a = true; fun f() \x7b return a; print a; \x7d print f();"

/-- A declaration that reads what it declares, in front of a comment that the text does not close. -/
def hidingText : String := "var a = a; // a"

/-- The first text with the second one behind the `return`. -/
def hiddenText : String :=
  "var a = true; fun f() \x7b return a;" ++ (hidingText ++ "\n" ++ " \x7d print f();")

/-- The code behind the first return of the program is dead. -/
theorem returnOuter_deadCode :
    DeadCode beforeReturn returnOuter behindReturn afterReturn where
  listed := .inr ⟨_, .leftBrace, rfl, rfl, rfl⟩
  returns := by
    have value : OptionalExpression 0 [⟨.identifier "a", "a", ⟨31, 32⟩⟩] _ 1 :=
      .some Primary.variable.expression
    refine ⟨0, _, _, _, .giveBack ?_ value ?_, rfl⟩ <;> exact rfl
  follows := by
    have value : Expression 0 [⟨.identifier "a", "a", ⟨40, 41⟩⟩] _ 1 := Primary.variable.expression
    refine ⟨0, _, _, .more (.statement (.print ?_ value ?_)) .none⟩ <;> exact rfl
  closed := .inr rfl

/-- A variable that is declared behind the `return` does not hide the one that is given back. -/
theorem run_ignoresDeadCode_hiding :
    (parse returningText).errors = [] ∧ Spells .return returnKeyword ∧
      AtDeclaration beforeReturn ∧
      lexemesOf returningText = beforeReturn ++ (returnOuter ++ (behindReturn ++ afterReturn)) ∧
      (parse hidingText).errors = [] ∧ lexErrorsOf hiddenText = [] ∧
      (lexemesOf hiddenText).map Lexeme.text =
        (beforeReturn ++ (returnOuter ++ (lexemesOf hidingText ++ afterReturn))).map Lexeme.text ∧
      (parse hiddenText).errors = [] ∧
      Run.EndsAlike (run 100 (fun _ => 0) .unlimited returningText)
        (run 100 (fun _ => 0) .unlimited hiddenText) := by
  have clean : (parse returningText).errors = [] := by decide +kernel
  have contains : lexemesOf returningText =
      beforeReturn ++ (returnOuter ++ (behindReturn ++ afterReturn)) := by
    with_unfolding_all rfl
  have fine : (parse hidingText).errors = [] := by decide +kernel
  have lexed : lexErrorsOf hiddenText = [] := by decide +kernel
  have same : (lexemesOf hiddenText).map Lexeme.text =
      (beforeReturn ++ (returnOuter ++ (lexemesOf hidingText ++ afterReturn))).map Lexeme.text := by
    decide +kernel
  have opens : Spells .return returnKeyword := rfl
  have listed := returnOuter_deadCode.listed
  obtain ⟨returned, dead, after, place, stands, -, replaced⟩ :=
    run_ignoresDeadCode clean opens listed contains fine
  obtain ⟨rfl, rfl, rfl⟩ := stands.unique returnOuter_deadCode place.symm
  obtain ⟨errors, runs⟩ := replaced hiddenText lexed same
  exact ⟨clean, opens, listed, contains, fine, lexed, same, errors, (runs 100 _ _).1⟩

end Lox
