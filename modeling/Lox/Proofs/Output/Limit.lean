import Lox.Proofs.Output.Breaking
import Lox.Proofs.Run.Phases

namespace Lox

namespace Evaluation

open Lox.Computation

/-- The same moment with a cut output. -/
def Moment.cut (limit : Nat) (moment : Moment) : Moment :=
  { moment with state := moment.state.cut limit }

section
variable {context : Context} {limit : Nat}

namespace Cuts

variable {α : Type} {compute : Eval α} {moment : Moment} {state after : State} {value : α}

/-- A computation that gives a value has only added to the output. -/
theorem extends_of_gives (cuts : Cuts context limit moment compute state)
    (given : Gives compute state value after) : Extends state after := by
  have grows := cuts.grows
  rwa [show compute state = .ok value after from given] at grows

/-- Work whose output fits gives the same value on a cut output. -/
theorem gives (cuts : Cuts context limit moment compute state)
    (given : Gives compute state value after) (fits : after.written ≤ limit) :
    Gives compute (state.cut limit) value (after.cut limit) := by
  have whole := cuts.whole
  rw [show compute state = .ok value after from given] at whole
  exact whole fits

end Cuts

/-- The output at a part goes on from that at the whole, and as long as it fits the same part is
come to on a cut output. -/
structure Follows (context : Context) (limit : Nat) (moment part : Moment) : Prop where
  grows : Extends moment.state part.state
  cut : part.state.written ≤ limit → Part context (moment.cut limit) (part.cut limit)

namespace Follows

variable {moment part other another : Moment} {α : Type} {compute : Eval α} {value : α}

/-- A part behind a step that fits is come to with what the step gives on a cut output. -/
theorem of_gives (cuts : Cuts context limit other compute moment.state)
    (given : Gives compute moment.state value part.state)
    (leads : Gives compute (moment.state.cut limit) value (part.state.cut limit) →
      Part context (moment.cut limit) (part.cut limit)) : Follows context limit moment part :=
  ⟨cuts.extends_of_gives given, fun fits => leads (cuts.gives given fits)⟩

/-- A step behind a quiet computation is a step under the limit, too. -/
theorem of_quiet (quiet : Quiet compute) (unlimited : moment.state.output.limit = none)
    (given : Gives compute moment.state value part.state)
    (leads : Gives compute (moment.state.cut limit) value (part.state.cut limit) →
      Part context (moment.cut limit) (part.cut limit)) : Follows context limit moment part := by
  have cuts : Cuts context limit moment compute moment.state := .of_quiet quiet unlimited
  exact .of_gives cuts given leads

/-- A part behind two steps. -/
theorem of_gives_gives {β : Type} {more : Eval β} {result : β} {middle : State}
    (cuts : Cuts context limit other compute moment.state)
    (given : Gives compute moment.state value middle)
    (later : middle.output.limit = none → Cuts context limit another more middle)
    (gave : Gives more middle result part.state)
    (leads : Gives compute (moment.state.cut limit) value (middle.cut limit) →
      Gives more (middle.cut limit) result (part.state.cut limit) →
        Part context (moment.cut limit) (part.cut limit)) : Follows context limit moment part := by
  have first := cuts.extends_of_gives given
  have second := (later first.unlimited).extends_of_gives gave
  refine ⟨first.trans second, fun fits => leads ?_ ?_⟩
  · exact cuts.gives given (Nat.le_trans second.written_le fits)
  · exact (later first.unlimited).gives gave fits

end Follows

/-- Whatever part an unlimited run comes to, a run on a cut output comes to as well, as long as the
output fits. -/
theorem Part.follows {moment part : Moment} (leads : Part context moment part)
    (unlimited : moment.state.output.limit = none) : Follows context limit moment part := by
  have all := breaks_off context limit
  cases leads with
  | «variable» => exact ⟨.refl unlimited, fun _ => .variable⟩
  | assignValue => exact ⟨.refl unlimited, fun _ => .assignValue⟩
  | group => exact ⟨.refl unlimited, fun _ => .group⟩
  | unary => exact ⟨.refl unlimited, fun _ => .unary⟩
  | binaryLeft => exact ⟨.refl unlimited, fun _ => .binaryLeft⟩
  | logicalLeft => exact ⟨.refl unlimited, fun _ => .logicalLeft⟩
  | callee => exact ⟨.refl unlimited, fun _ => .callee⟩
  | first => exact ⟨.refl unlimited, fun _ => .first⟩
  | some => exact ⟨.refl unlimited, fun _ => .some⟩
  | expression => exact ⟨.refl unlimited, fun _ => .expression⟩
  | print => exact ⟨.refl unlimited, fun _ => .print⟩
  | initializer => exact ⟨.refl unlimited, fun _ => .initializer⟩
  | condition => exact ⟨.refl unlimited, fun _ => .condition⟩
  | loop => exact ⟨.refl unlimited, fun _ => .loop⟩
  | giveBack => exact ⟨.refl unlimited, fun _ => .giveBack⟩
  | test => exact ⟨.refl unlimited, fun _ => .test⟩
  | head => exact ⟨.refl unlimited, fun _ => .head⟩
  | assign first => exact .of_gives ((all _).expr _ _ _ unlimited) first .assign
  | binaryRight first => exact .of_gives ((all _).expr _ _ _ unlimited) first .binaryRight
  | logicalRight first open_ =>
      exact .of_gives ((all _).expr _ _ _ unlimited) first (.logicalRight · open_)
  | arguments first callable =>
      exact .of_gives ((all _).expr _ _ _ unlimited) first (.arguments · callable)
  | call first callable passed =>
      exact .of_gives_gives ((all _).expr _ _ _ unlimited) first ((all _).exprs _ _ _) passed
        (.call · callable ·)
  | rest first => exact .of_gives ((all _).expr _ _ _ unlimited) first .rest
  | body fits entered => exact .of_quiet enter_quiet unlimited entered (.body fits ·)
  | block opened => exact .of_quiet nest_quiet unlimited opened .block
  | consequent first holds =>
      exact .of_gives ((all _).expr _ _ _ unlimited) first (.consequent · holds)
  | alternative first fails =>
      exact .of_gives ((all _).expr _ _ _ unlimited) first (.alternative · fails)
  | turn first holds => exact .of_gives ((all _).expr _ _ _ unlimited) first (.turn · holds)
  | again first holds turned =>
      exact .of_gives_gives ((all _).expr _ _ _ unlimited) first ((all _).stmt _ _ _) turned
        (.again · holds ·)
  | tail first => exact .of_gives ((all _).stmt _ _ _ unlimited) first .tail

/-- A run comes to the same moments on a cut output, as long as the output fits. -/
theorem Reaches.cut {first last : Moment} (reached : Reaches context first last)
    (unlimited : first.state.output.limit = none) :
    Extends first.state last.state ∧
      (last.state.written ≤ limit → Reaches context (first.cut limit) (last.cut limit)) := by
  induction reached with
  | refl => exact ⟨.refl unlimited, fun _ => .refl⟩
  | tail _ leads ih =>
      obtain ⟨grown, reached⟩ := ih
      obtain ⟨grows, cut⟩ := leads.follows grown.unlimited
      refine ⟨grown.trans grows, fun fits => ?_⟩
      exact .tail (reached (Nat.le_trans grows.written_le fits)) (cut fits)

/-- On a cut output a run halts at the statement that prints the first byte too many. -/
theorem Prints.halts {start : Moment} {span : Span} (prints : Prints context start limit span)
    (unlimited : start.state.output.limit = none) :
    ∃ after, Halts context (start.cut limit) (.error ⟨.writeFailed "stdout", span⟩) after := by
  obtain ⟨fuel, env, value, state, given, after, reached, valued, fits, beyond⟩ := prints
  obtain ⟨grown, cut⟩ := reached.cut unlimited
  have cuts := (breaks_off context limit fuel).expr env value state grown.unlimited
  have grows := cuts.extends_of_gives valued
  have full : ((after.cut limit).output.write (given.text ++ "\n")).1 = false :=
    (congrArg Prod.fst (write_cutOutput grows.unlimited fits _)).trans
      (decide_eq_false (Nat.not_le_of_lt beyond))
  exact ⟨_, halts_iff.2 ⟨_, cut (Nat.le_trans grows.written_le fits),
    .print (cuts.gives valued fits) full⟩⟩

/-- Work that breaks off on a cut output does so at the only statement that prints the first byte
too many. -/
theorem Prints.unique {start : Moment} {span other : Span} {last : State}
    (stopped : Halts context (start.cut limit) (.error ⟨.writeFailed "stdout", span⟩) last)
    (unlimited : start.state.output.limit = none) (prints : Prints context start limit other) :
    other = span := by
  obtain ⟨after, halted⟩ := prints.halts unlimited
  cases (halted.unique stopped).1
  rfl

end

end Evaluation

open Evaluation Lox.Computation Report

/-- An error is found before the program runs. -/
def Error.isStatic (error : Located Error) : Bool := error.item.phase = .static

/-- The end of a run as the end of a program. -/
def Ending.of {α : Type} : EStateM.Result Halt Evaluation.State α → Ending
  | .ok _ _ => .finished
  | .error halt _ => .halted halt

/-- How a program ends does not depend on what it has stored and written. -/
@[simp] theorem Ending.of_mapState {α : Type} (change : Evaluation.State → Evaluation.State)
    (ran : EStateM.Result Halt Evaluation.State α) : of (mapState change ran) = of ran := by
  cases ran <;> rfl

namespace Interpreter

/-- An interpreter runs a program from the state it is in. -/
theorem interpret_eq (interpreter : Interpreter) (fuel : Nat) (program : Program) :
    let ran := runStmts interpreter.context fuel interpreter.context.globals program interpreter.state
    interpreter.interpret fuel program =
      (.of ran, { interpreter with state := lastState ran }) := by
  intro ran
  cases ended : ran with
  | ok flow after => exact interpret_of_ok ended
  | error halt after => exact interpret_of_error ended

/-- An interpreter with a limited output is one with an unlimited output that is cut. -/
theorem loaded_limited (clock : Nat → Float) (limit : Nat) (program : Program) :
    loaded clock (.limited limit) program =
      { loaded clock .unlimited program with
        state := (loaded clock .unlimited program).state.cut limit } := by
  have empty : ByteArray.empty.extract 0 limit = .empty := extract_of_size_le (Nat.zero_le limit)
  simp only [StateOf.cut, cutOutput, loaded, resolve, new, Sink.unlimited, empty]
  rfl

end Interpreter

/-- An error that aborts a program is no static one. -/
theorem Interpreter.ending_runtime {text : String} (clean : (parse text).errors = []) (fuel : Nat)
    (clock : Nat → Float) (output : Sink) :
    ∀ error ∈ (execute fuel clock output (parse text).program).1.error?.toList,
      error.item.phase = .runtime := by
  intro error given
  rcases execute_ending clean fuel clock output with finished | out | ⟨other, halted, aborts⟩
  · simp [finished, Ending.error?] at given
  · simp [out, Ending.error?] at given
  · simp only [halted, Ending.error?, Option.toList_some, List.mem_singleton] at given
    exact given ▸ aborts.phase

/-- The static errors of a run are those of the resolution. -/
theorem run_static {text : String} (clean : (parse text).errors = []) (fuel : Nat)
    (clock : Nat → Float) (output : Sink) :
    (run fuel clock output text).errors.filter Error.isStatic =
      (resolve (parse text).program).errors := by
  rw [run_of_clean clean, List.filter_append]
  have static : (resolve (parse text).program).errors.filter Error.isStatic = _ :=
    List.filter_eq_self.2 fun error given =>
      decide_eq_true (Resolution.resolve_static (parse text).program error given)
  have runtime : (Interpreter.execute fuel clock output
      (parse text).program).1.error?.toList.filter Error.isStatic = [] := by
    apply List.filter_eq_nil_iff.2
    intro error given
    simp [Error.isStatic, Interpreter.ending_runtime clean fuel clock output error given]
  exact (congrArg₂ (· ++ ·) static runtime).trans (List.append_nil _)

/-- What becomes of a run when its output takes only a number of bytes. -/
structure CutsOff (context : Context) (start : Moment) (limit : Nat) (whole cut : Run) : Prop where
  ends : cut.ending ≠ .halted .outOfFuel
  /-- The output is cut off behind the bytes that it takes. -/
  output : cut.output.contents =
    whole.output.contents.extract 0 (min limit whole.output.contents.size)
  static : cut.errors.filter Error.isStatic = whole.errors.filter Error.isStatic
  /-- Nothing else changes if the output fits. -/
  fits : whole.output.contents.size ≤ limit → cut.errors = whole.errors ∧ cut.ending = whole.ending
  /-- If it does not, the one error of the run is at the one statement that prints the first byte too
  many. -/
  breaks : limit < whole.output.contents.size → ∃ span,
    (∀ other, Prints context start limit other ↔ other = span) ∧
      cut.ending = .halted (.error ⟨.writeFailed "stdout", span⟩) ∧
      cut.errors = whole.errors.filter Error.isStatic ++ [⟨.writeFailed "stdout", span⟩]

section
variable {fuel : Nat} {clock : Nat → Float} {text : String}

/-- A run of a text without syntax errors, by the statements that it runs. -/
theorem run_eq (clean : (parse text).errors = []) (fuel : Nat) (clock : Nat → Float)
    (output : Sink) :
    let loaded := Interpreter.loaded clock output (parse text).program
    let ran := runStmts loaded.context fuel loaded.context.globals (parse text).program loaded.state
    run fuel clock output text =
      ⟨(resolve (parse text).program).errors ++ (Ending.of ran).error?.toList,
        (lastState ran).output, .of ran⟩ := by
  rw [run_of_clean clean, Interpreter.interpret_eq]
  rfl

/-- A clean program that ends is cut off at every limit. -/
theorem cutsOff_of_clean (clean : (parse text).errors = [])
    (ended : (run fuel clock .unlimited text).ending ≠ .halted .outOfFuel) (limit : Nat) :
    CutsOff (Interpreter.loaded clock .unlimited (parse text).program).context
      ((Interpreter.loaded clock .unlimited (parse text).program).start (parse text).program fuel)
      limit (run fuel clock .unlimited text) (run fuel clock (.limited limit) text) := by
  have wholeStatic := run_static clean fuel clock .unlimited
  have static := (run_static clean fuel clock (.limited limit)).trans wholeStatic.symm
  have whole := run_eq clean fuel clock .unlimited
  have cut := run_eq clean fuel clock (.limited limit)
  rw [Interpreter.loaded_limited] at cut
  have opened : (Interpreter.loaded clock .unlimited (parse text).program).state.output =
    .unlimited := rfl
  generalize Interpreter.loaded clock .unlimited (parse text).program = loaded
    at whole cut opened ⊢
  have unlimited : loaded.state.output.limit = none := congrArg Sink.limit opened
  have empty : loaded.state.written ≤ limit := by simp [StateOf.written, opened, Sink.unlimited]
  have cuts := (breaks_off loaded.context limit fuel).stmts loaded.context.globals
    (parse text).program loaded.state unlimited
  have output := congrArg (fun ran => ran.output.contents) whole
  have size := congrArg ByteArray.size output
  rcases Nat.lt_or_ge limit (run fuel clock .unlimited text).output.contents.size with beyond | fits
  · obtain ⟨span, last, prints, stopped, contents⟩ := cuts.broken empty (Nat.lt_of_lt_of_eq beyond size)
    simp only [stopped] at cut
    have halted : (run fuel clock (.limited limit) text).ending ≠ .halted .outOfFuel := by
      rw [cut]
      intro same
      cases same
    refine ⟨halted, ?_, static, fun fits => absurd beyond (Nat.not_lt_of_le fits),
      fun _ => ⟨span, fun other => ?_, by rw [cut]; rfl, by rw [wholeStatic, cut]; rfl⟩⟩
    · rw [← extract_min, output, ← contents, cut]
      rfl
    · exact ⟨Prints.unique stopped unlimited, fun same => same ▸ prints⟩
  · have same := cuts.whole (Nat.le_trans (Nat.le_of_eq size.symm) fits)
    simp only [same, Ending.of_mapState, lastState_mapState] at cut
    have ending := (congrArg Run.ending cut).trans (congrArg Run.ending whole).symm
    refine ⟨ending ▸ ended, ?_, static, fun _ => ⟨?_, ending⟩,
      fun beyond => absurd beyond (Nat.not_lt_of_le fits)⟩
    · rw [← extract_min, output, cut]
      rfl
    · rw [cut, whole]

/-- A text with errors writes nothing, so that no limit matters. -/
theorem cutsOff_of_wrong (wrong : (parse text).errors ≠ []) (context : Context) (start : Moment)
    (limit : Nat) :
    CutsOff context start limit (run fuel clock .unlimited text)
      (run fuel clock (.limited limit) text) := by
  rw [run_of_wrong wrong, run_of_wrong wrong]
  have empty : ByteArray.empty.extract 0 (min limit ByteArray.empty.size) = .empty := by simp
  exact ⟨nofun, empty.symm, rfl, fun _ => ⟨rfl, rfl⟩, nofun⟩

/-- An output that takes a number of bytes cuts off what is written behind them, and a run that
writes more ends with one runtime error, at the statement that prints the first byte too many. -/
theorem run_cutsOff (ended : (run fuel clock .unlimited text).ending ≠ .halted .outOfFuel)
    (limit : Nat) {ρ : Type} [Reporting ρ] (source : Source) (reporter : ρ) :
    let loaded := Interpreter.loaded clock .unlimited (parse text).program
    let whole := run fuel clock .unlimited text
    let cut := run fuel clock (.limited limit) text
    let diagnostics := (DiagnosticsOf.new source reporter).reportAll cut.errors
    CutsOff loaded.context (loaded.start (parse text).program fuel) limit whole cut ∧
      (whole.output.contents.size ≤ limit →
        diagnostics = (DiagnosticsOf.new source reporter).reportAll whole.errors) ∧
      (limit < whole.output.contents.size → diagnostics.hadRuntimeError = true) := by
  intro loaded whole cut diagnostics
  have cutsOff : CutsOff loaded.context (loaded.start (parse text).program fuel) limit whole cut := by
    by_cases clean : (parse text).errors = []
    · exact cutsOff_of_clean clean ended limit
    · exact cutsOff_of_wrong clean _ _ limit
  refine ⟨cutsOff, fun fits => ?_, fun beyond => ?_⟩
  · exact congrArg _ (cutsOff.fits fits).1
  · obtain ⟨span, -, -, errors⟩ := cutsOff.breaks beyond
    change ((DiagnosticsOf.new source reporter).reportAll cut.errors).hadRuntimeError = true
    rw [DiagnosticsOf.reportAll_hadRuntimeError, errors]
    simp [Error.phase, Error.category]

end

/-- A text that prints in a call and fails behind it. -/
def printText : String :=
  "fun show(a) \x7b print a; return -a; \x7d print show(\"text\");"

theorem printText_ends :
    (run 100 (fun _ => 0) .unlimited printText).ending ≠ .halted .outOfFuel := by
  intro out
  have failed : (run 100 (fun _ => 0) .unlimited printText).ending.error?.isSome = true := by
    decide +kernel
  rw [out] at failed
  cases failed

/-- An output that takes the text of a line and not its end. -/
theorem run_cutsOff_call :
    let loaded := Interpreter.loaded (fun _ => 0) .unlimited (parse printText).program
    let whole := run 100 (fun _ => 0) .unlimited printText
    let cut := run 100 (fun _ => 0) (.limited 4) printText
    whole.ending ≠ .halted .outOfFuel ∧ 4 < whole.output.contents.size ∧
      CutsOff loaded.context (loaded.start (parse printText).program 100) 4 whole cut :=
  ⟨printText_ends, by decide +kernel,
    (run_cutsOff printText_ends 4 ⟨"print", printText⟩ (.lines .unlimited : Reporter)).1⟩

end Lox
