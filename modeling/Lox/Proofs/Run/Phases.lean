import Lox.Command
import Lox.Proofs.Run.Agreement

namespace Lox

open Evaluation Report

namespace Token

/-- An item that is an error is wrong before the program runs. -/
def Item.IsStatic (item : Item) : Prop :=
  ∀ error, item.error? = some error → error.item.phase = .static

theorem lexeme_isStatic (lexeme : Lexeme) : (Item.lexeme lexeme).IsStatic := nofun

theorem unexpected_isStatic (text : List Char) (span : Span) : (unexpected text span).IsStatic := by
  intro error same
  cases same
  rfl

mutual

/-- The lexer reports only errors that are found before the program runs. -/
theorem items_isStatic : ∀ pieces, ∀ item ∈ items pieces, item.IsStatic
  | [] => nofun
  | ⟨⟨.blank, _⟩, _⟩ :: rest => items_isStatic rest
  | ⟨⟨.token _, _⟩, _⟩ :: rest =>
      List.forall_mem_cons.2 ⟨lexeme_isStatic _, items_isStatic rest⟩
  | ⟨⟨.invalid, text⟩, span⟩ :: rest => itemsAfter_isStatic text span rest
  | ⟨⟨.unterminated, _⟩, _⟩ :: rest => by
      refine List.forall_mem_cons.2 ⟨?_, items_isStatic rest⟩
      intro error same
      cases same
      rfl

/-- The error for unrecognized characters is found before the program runs, like those behind it. -/
theorem itemsAfter_isStatic (run : List Char) (span : Span) :
    ∀ pieces, ∀ item ∈ itemsAfter run span pieces, item.IsStatic
  | [] => List.forall_mem_singleton.2 (unexpected_isStatic run span)
  | ⟨⟨.blank, _⟩, _⟩ :: rest => itemsAfter_isStatic run span rest
  | ⟨⟨.token _, _⟩, _⟩ :: rest =>
      List.forall_mem_cons.2 ⟨unexpected_isStatic run span,
        List.forall_mem_cons.2 ⟨lexeme_isStatic _, items_isStatic rest⟩⟩
  | ⟨⟨.invalid, text⟩, next⟩ :: rest => joined_isStatic run text span next rest rfl
  | ⟨⟨.unterminated, text⟩, next⟩ :: rest => joined_isStatic run text span next rest rfl

/-- A piece that is an error joins the run before it, or it ends the run. -/
theorem joined_isStatic (run text : List Char) (span next : Span) (rest : List (Located Piece))
    {given : List Item}
    (split : given = if next.start = span.stop then itemsAfter (run ++ text) (span.to next) rest
      else unexpected run span :: .lexeme ⟨.invalid, String.ofList text, next⟩ :: items rest) :
    ∀ item ∈ given, item.IsStatic := by
  subst split
  split
  · exact itemsAfter_isStatic (run ++ text) (span.to next) rest
  · exact List.forall_mem_cons.2 ⟨unexpected_isStatic run span,
      List.forall_mem_cons.2 ⟨lexeme_isStatic _, items_isStatic rest⟩⟩

end

end Token

namespace Parser

/-- Every lexical error is found before the run. -/
theorem lexErrorsOf_static (text : String) :
    ∀ error ∈ lexErrorsOf text, error.item.phase = .static := by
  intro error found
  obtain ⟨item, given, same⟩ := List.mem_filterMap.1 found
  exact Token.items_isStatic _ item given error same

/-- The errors of a text are those of the lexer and then those of the parser, and all of them are
wrong before the program runs. -/
theorem parse_errors (text : String) :
    (∃ found, (parse text).errors = lexErrorsOf text ++ found) ∧
      ∀ error ∈ (parse text).errors, error.item.phase = .static := by
  obtain ⟨program, last, -, same, advances⟩ := parse_reads text
  obtain ⟨found, reported, static⟩ := advances.reported
  rw [same]
  change (∃ found, last.errors.toList = lexErrorsOf text ++ found) ∧ _
  refine ⟨⟨found, reported⟩, ?_⟩
  rw [reported]
  intro error given
  rcases List.mem_append.1 given with given | given
  · exact lexErrorsOf_static text error given
  · exact static error given

end Parser

namespace Report.DiagnosticsOf

variable {ρ : Type} [Reporting ρ] (diagnostics : DiagnosticsOf ρ) (errors : List (Located Error))

/-- The reporter is given the errors in order. -/
theorem reportAll_reporter :
    (diagnostics.reportAll errors).reporter =
      errors.foldl (fun reporter error => Reporting.report diagnostics.source error reporter)
        diagnostics.reporter := by
  induction errors generalizing diagnostics with
  | nil => rfl
  | cons error rest ih => exact ih (diagnostics.report error)

/-- The flag of static errors is set by the errors that are static. -/
theorem reportAll_hadError :
    (diagnostics.reportAll errors).hadError =
      (diagnostics.hadError || errors.any fun error => error.item.phase = .static) := by
  induction errors generalizing diagnostics with
  | nil => simp [reportAll]
  | cons error rest ih =>
      rw [List.any_cons, ← Bool.or_assoc]
      exact ih (diagnostics.report error)

/-- The flag of runtime errors is set by the errors of the run. -/
theorem reportAll_hadRuntimeError :
    (diagnostics.reportAll errors).hadRuntimeError =
      (diagnostics.hadRuntimeError || errors.any fun error => error.item.phase = .runtime) := by
  induction errors generalizing diagnostics with
  | nil => simp [reportAll]
  | cons error rest ih =>
      rw [List.any_cons, ← Bool.or_assoc]
      exact ih (diagnostics.report error)

end Report.DiagnosticsOf

/-- Some error of one phase has another phase only if the phases are the same. -/
theorem any_phase {errors : List (Located Error)} {phase : Error.Phase}
    (all : ∀ error ∈ errors, error.item.phase = phase) (other : Error.Phase) :
    (errors.any fun error => error.item.phase = other) = true ↔ errors ≠ [] ∧ phase = other := by
  rw [List.any_eq_true]
  constructor
  · rintro ⟨error, given, same⟩
    exact ⟨List.ne_nil_of_mem given, (all error given).symm.trans (of_decide_eq_true same)⟩
  · rintro ⟨some, same⟩
    obtain ⟨error, given⟩ := List.exists_mem_of_ne_nil errors some
    exact ⟨error, given, decide_eq_true ((all error given).trans same)⟩

/-- The errors that abort a run are those of names without a value, of operations that do not
apply, and of output that cannot be written. -/
inductive Error.Aborts : Error → Prop
  | notDefined (name : String) : Aborts (.notDefined name)
  | type {error : Error} (category : error.category = .type) : Aborts error
  | writeFailed (file : String) : Aborts (.writeFailed file)

/-- An error that aborts a run is found in the run. -/
theorem Error.Aborts.phase {error : Error} (aborts : error.Aborts) : error.phase = .runtime := by
  cases aborts with
  | notDefined name => rfl
  | type category => cases error <;> first | rfl | cases category
  | writeFailed file => rfl

/-- A program runs after its resolution, whatever errors that has found. -/
def Interpreter.execute (fuel : Nat) (clock : Nat → Float) (output : Sink) (program : Program) :
    Ending × Interpreter :=
  (loaded clock output program).interpret fuel program

/-- The run of a program, whatever errors its resolution finds. -/
def Run.of (fuel : Nat) (clock : Nat → Float) (output : Sink) (program : Program) : Run :=
  let ran := Interpreter.execute fuel clock output program
  ⟨(resolve program).errors ++ ran.1.error?.toList, ran.2.output, ran.1⟩

/-- A text without errors runs its program. -/
theorem run_eq_of_clean {text : String} (clean : (parse text).errors = []) (fuel : Nat)
    (clock : Nat → Float) (output : Sink) :
    run fuel clock output text = .of fuel clock output (parse text).program :=
  run_of_clean clean fuel clock output

/-- A program of the grammar that does not run out of fuel finishes, or an error aborts it. -/
theorem Interpreter.execute_ending {text : String} (clean : (parse text).errors = [])
    (fuel : Nat) (clock : Nat → Float) (output : Sink) :
    (execute fuel clock output (parse text).program).1 = .finished ∨
      (execute fuel clock output (parse text).program).1 = .halted .outOfFuel ∨
      ∃ error, (execute fuel clock output (parse text).program).1 = .halted (.error error) ∧
        error.item.Aborts := by
  have forms := (Parser.forms_of_clean clean).2
  have ready := start_ready forms clock output fuel
  rcases interpret_ending ready with finished | ⟨halt, halted, explained⟩
  · exact .inl finished
  · refine .inr ?_
    cases explained with
    | outOfFuel => exact .inl halted
    | type category => exact .inr ⟨_, halted, .type category⟩
    | output => exact .inr ⟨_, halted, .writeFailed _⟩
    | access => exact .inr ⟨_, halted, .notDefined _⟩

/-- A run of a text with syntax errors has these errors, all of them static, and does nothing
else. -/
structure Rejected (text : String) (output : Sink) (ran : Run) : Prop where
  wrong : (parse text).errors ≠ []
  only : ran = ⟨(parse text).errors, output, .finished⟩
  static : ∀ error ∈ (parse text).errors, error.item.phase = .static

/-- A run of a text without syntax errors has the errors of the resolution, all of them static, and
behind them at most the one that aborts the run. What it writes and how it ends does not depend on
the errors of the resolution. -/
structure Executed (fuel : Nat) (clock : Nat → Float) (output : Sink) (text : String) (ran : Run)
    (aborting : Option (Located Error)) : Prop where
  clean : (parse text).errors = []
  errors : ran.errors = (resolve (parse text).program).errors ++ aborting.toList
  static : ∀ error ∈ (resolve (parse text).program).errors, error.item.phase = .static
  aborts : ∀ error ∈ aborting, error.item.Aborts ∧ error.item.phase = .runtime
  ending : ran.ending = match aborting with
    | none => .finished
    | some error => .halted (.error error)
  sameEnding : ran.ending = (Interpreter.execute fuel clock output (parse text).program).1
  sameOutput : ran.output = (Interpreter.execute fuel clock output (parse text).program).2.output

/-- A text is wrong before it runs when the lexer, the parser or the resolution finds an error. -/
def WrongBefore (text : String) : Prop :=
  Parser.lexErrorsOf text ≠ [] ∨ (parse text).errors ≠ [] ∨
    (resolve (parse text).program).errors ≠ []

section
variable {fuel : Nat} {clock : Nat → Float} {output : Sink} {text : String}

/-- A text with errors is rejected. -/
theorem run_rejected (wrong : (parse text).errors ≠ []) :
    Rejected text output (run fuel clock output text) :=
  ⟨wrong, run_of_wrong wrong fuel clock output, (Parser.parse_errors text).2⟩

/-- A clean program that ends is executed. -/
theorem run_executed (clean : (parse text).errors = [])
    (ended : (run fuel clock output text).ending ≠ .halted .outOfFuel) :
    ∃ aborting, Executed fuel clock output text (run fuel clock output text) aborting := by
  rw [run_of_clean clean] at ended ⊢
  have static := Resolution.resolve_static (parse text).program
  rcases Interpreter.execute_ending clean fuel clock output with
    finished | out | ⟨error, halted, aborts⟩
  · refine ⟨none, clean, ?_, static, nofun, finished, rfl, rfl⟩
    exact congrArg (fun ending : Ending => _ ++ ending.error?.toList) finished
  · exact absurd out ended
  · refine ⟨some error, clean, ?_, static, ?_, halted, rfl, rfl⟩
    · exact congrArg (fun ending : Ending => _ ++ ending.error?.toList) halted
    · rintro _ ⟨⟩
      exact ⟨aborts, aborts.phase⟩

section
variable {ρ : Type} [Reporting ρ] {ran : Run} {source : Source} {reporter : ρ}

/-- A rejected text sets the flag of static errors alone. -/
theorem Rejected.flags (rejected : Rejected text output ran) :
    ((DiagnosticsOf.new source reporter).reportAll ran.errors).hadError = true ∧
      ((DiagnosticsOf.new source reporter).reportAll ran.errors).hadRuntimeError = false := by
  obtain ⟨wrong, rfl, static⟩ := rejected
  rw [DiagnosticsOf.reportAll_hadError, DiagnosticsOf.reportAll_hadRuntimeError]
  refine ⟨(any_phase static .static).2 ⟨wrong, rfl⟩, ?_⟩
  refine Bool.eq_false_iff.2 fun found => ?_
  cases ((any_phase static .runtime).1 found).2

/-- An executed program sets the flag of each phase that has an error. -/
theorem Executed.flags {aborting : Option (Located Error)}
    (executed : Executed fuel clock output text ran aborting) :
    (((DiagnosticsOf.new source reporter).reportAll ran.errors).hadError = true ↔
        (resolve (parse text).program).errors ≠ []) ∧
      (((DiagnosticsOf.new source reporter).reportAll ran.errors).hadRuntimeError = true ↔
        aborting.isSome = true) := by
  have runtime : ∀ error ∈ aborting.toList, error.item.phase = .runtime := fun error given =>
    (executed.aborts error (Option.mem_toList.1 given)).2
  have none : aborting.toList ≠ [] ↔ aborting.isSome = true := by
    cases aborting <;> simp
  rw [DiagnosticsOf.reportAll_hadError, DiagnosticsOf.reportAll_hadRuntimeError, executed.errors]
  simp only [DiagnosticsOf.new, Bool.false_or, List.any_append, Bool.or_eq_true,
    any_phase executed.static, any_phase runtime, none, and_true, reduceCtorEq, and_false, or_false,
    false_or, and_self]

end

/-- The exit code of a command tells whether the text is wrong before it runs, and else how the run
ends. -/
structure Exits (text : String) (ending : Ending) (code : Nat) : Prop where
  static : code = 65 ↔ WrongBefore text
  runtime : code = 70 ↔ ¬ WrongBefore text ∧ ∃ error, ending = .halted (.error error)
  success : code = 0 ↔ ¬ WrongBefore text ∧ ending = .finished

/-- A clean text is wrong before the run if the resolver finds an error. -/
theorem wrongBefore_of_clean (clean : (parse text).errors = []) :
    WrongBefore text ↔ (resolve (parse text).program).errors ≠ [] := by
  obtain ⟨⟨found, split⟩, -⟩ := Parser.parse_errors text
  rw [clean, List.nil_eq, List.append_eq_nil_iff] at split
  simp [WrongBefore, clean, split.1]

/-- The exit code follows from the two flags. -/
theorem exits_of_flags {ρ : Type} {diagnostics : DiagnosticsOf ρ} {ending : Ending}
    (static : diagnostics.hadError = true ↔ WrongBefore text)
    (runtime : diagnostics.hadRuntimeError = true ↔ ∃ error, ending = .halted (.error error))
    (ended : ending = .finished ∨ ∃ error, ending = .halted (.error error)) :
    Exits text ending (Command.Exit.of diagnostics).code := by
  unfold Command.Exit.of
  split
  next wrong =>
    have before := static.1 wrong
    exact ⟨by simp [Command.Exit.code, before], by simp [Command.Exit.code, before],
      by simp [Command.Exit.code, before]⟩
  next right =>
    have before : ¬ WrongBefore text := fun wrong => right (static.2 wrong)
    split
    next aborted =>
      obtain ⟨error, rfl⟩ := runtime.1 aborted
      exact ⟨by simp [Command.Exit.code, before], by simp [Command.Exit.code, before],
        by simp [Command.Exit.code]⟩
    next completed =>
      have other : ¬ ∃ error, ending = .halted (.error error) := fun some =>
        completed (runtime.2 some)
      have finished := ended.resolve_right other
      exact ⟨by simp [Command.Exit.code, before], by simp [Command.Exit.code, finished],
        by simp [Command.Exit.code, before, finished]⟩

/-- An executed program halts with its aborting error, or finishes. -/
theorem Executed.ends {ran : Run} {aborting : Option (Located Error)}
    (executed : Executed fuel clock output text ran aborting) :
    (aborting.isSome = true ↔ ∃ error, ran.ending = .halted (.error error)) ∧
      (ran.ending = .finished ∨ ∃ error, ran.ending = .halted (.error error)) := by
  have ending := executed.ending
  cases aborting with
  | none =>
      have finished : ran.ending = .finished := ending
      simp [finished]
  | some error =>
      have halted : ran.ending = .halted (.error error) := ending
      simp [halted]

/-- How a command exits does not depend on the reporter. -/
theorem exit_reportAll {ρ σ : Type} [Reporting ρ] [Reporting σ] (source other : Source)
    (reporter : ρ) (another : σ) (errors : List (Located Error)) :
    Command.Exit.of ((DiagnosticsOf.new source reporter).reportAll errors) =
      Command.Exit.of ((DiagnosticsOf.new other another).reportAll errors) := by
  unfold Command.Exit.of
  rw [DiagnosticsOf.reportAll_hadError, DiagnosticsOf.reportAll_hadRuntimeError,
    DiagnosticsOf.reportAll_hadError, DiagnosticsOf.reportAll_hadRuntimeError]
  rfl

/-- A run that ends reports only syntax errors, or it reports the errors of the resolution, runs and
then reports at most the error that aborts it. The exit of the command tells these apart. -/
theorem run_phases {ρ : Type} [Reporting ρ]
    (ended : (run fuel clock output text).ending ≠ .halted .outOfFuel) (source : Source)
    (reporter : ρ) :
    let ran := run fuel clock output text
    let diagnostics := (DiagnosticsOf.new source reporter).reportAll ran.errors
    diagnostics.reporter =
        ran.errors.foldl (fun reporter error => Reporting.report source error reporter) reporter ∧
      (Rejected text output ran ∧
          diagnostics.hadError = true ∧ diagnostics.hadRuntimeError = false ∨
        ∃ aborting, Executed fuel clock output text ran aborting ∧
          (diagnostics.hadError = true ↔ (resolve (parse text).program).errors ≠ []) ∧
          (diagnostics.hadRuntimeError = true ↔ aborting.isSome = true)) ∧
      Exits text ran.ending (Command.Exit.of diagnostics).code ∧
      ∀ plain name bytes, output = .unlimited → String.fromUTF8? bytes = some text →
        (Command.run fuel clock plain name (.ok bytes)).exit = Command.Exit.of diagnostics := by
  intro ran diagnostics
  have command (plain : Bool) (name : String) (bytes : ByteArray) (unlimited : output = .unlimited)
      (decoded : String.fromUTF8? bytes = some text) :
      (Command.run fuel clock plain name (.ok bytes)).exit = Command.Exit.of diagnostics := by
    subst unlimited
    simp only [Command.run, decoded]
    exact exit_reportAll _ source _ reporter ran.errors
  refine ⟨DiagnosticsOf.reportAll_reporter _ _, ?_⟩
  cases clean : (parse text).errors with
  | cons error rest =>
      have wrong : (parse text).errors ≠ [] := by simp [clean]
      have rejected : Rejected text output ran := run_rejected wrong
      obtain ⟨static, runtime⟩ : diagnostics.hadError = true ∧ diagnostics.hadRuntimeError = false :=
        rejected.flags
      have finished : ran.ending = .finished := congrArg Run.ending rejected.only
      refine ⟨.inl ⟨rejected, static, runtime⟩, exits_of_flags ?_ ?_ (.inl finished), command⟩
      · exact iff_of_true static (.inr (.inl wrong))
      · simp [runtime, finished]
  | nil =>
      obtain ⟨aborting, executed⟩ := run_executed clean ended
      obtain ⟨static, runtime⟩ : (diagnostics.hadError = true ↔ _) ∧
        (diagnostics.hadRuntimeError = true ↔ _) := executed.flags
      refine ⟨.inr ⟨aborting, executed, static, runtime⟩, exits_of_flags ?_ ?_ executed.ends.2, command⟩
      · exact static.trans (wrongBefore_of_clean clean).symm
      · exact runtime.trans executed.ends.1

end

/-- A text with an error of the resolution and an error that aborts its run. -/
def twiceText : String := "\x7b var a; var a; print -a; \x7d"

theorem twiceText_halts :
    (run 100 (fun _ => 0) .unlimited twiceText).ending ≠ .halted .outOfFuel := by
  intro out
  have failed : (run 100 (fun _ => 0) .unlimited twiceText).ending.error?.isSome = true := by
    decide +kernel
  rw [out] at failed
  cases failed

/-- The error of the resolution decides the exit also when the run is aborted. -/
theorem run_phases_twice :
    let ran := run 100 (fun _ => 0) .unlimited twiceText
    let diagnostics := (DiagnosticsOf.new ⟨"twice", twiceText⟩ (.lines .unlimited : Reporter)).reportAll
      ran.errors
    ran.ending ≠ .halted .outOfFuel ∧ Exits twiceText ran.ending (Command.Exit.of diagnostics).code :=
  ⟨twiceText_halts, (run_phases twiceText_halts _ _).2.2.1⟩

end Lox
