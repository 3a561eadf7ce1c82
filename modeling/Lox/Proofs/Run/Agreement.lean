import Lox.Interpreter
import Lox.Proofs.Run.StatementSoundness
import Lox.Proofs.Syntax.Recognition

namespace Lox

open Evaluation Resolution

namespace Interpreter

/-- A new interpreter that has resolved a program. -/
def loaded (clock : Nat → Float) (output : Sink) (program : Program) : Interpreter :=
  ((Interpreter.new clock output).resolve program).1

section
variable (clock : Nat → Float) (output : Sink) (program : Program)

@[simp] theorem loaded_globals : (loaded clock output program).context.globals = ⟨0, []⟩ := rfl

end

/-- The moment at which an interpreter starts to run a program. -/
def start (interpreter : Interpreter) (program : Program) (fuel : Nat) : Moment :=
  ⟨fuel, .stmts interpreter.context.globals program, interpreter.state⟩

section
variable {interpreter : Interpreter} {program : Program} {fuel : Nat} {after : Evaluation.State}

/-- A program whose statements end is finished. -/
theorem interpret_of_ok {flow : Flow}
    (ended : runStmts interpreter.context fuel interpreter.context.globals program
      interpreter.state = .ok flow after) :
    interpreter.interpret fuel program = (.finished, { interpreter with state := after }) := by
  simp only [interpret, perform, EStateM.run, ended]

/-- A program whose statements halt is halted. -/
theorem interpret_of_error {halt : Halt}
    (ended : runStmts interpreter.context fuel interpreter.context.globals program
      interpreter.state = .error halt after) :
    interpreter.interpret fuel program = (.halted halt, { interpreter with state := after }) := by
  simp only [interpret, perform, EStateM.run, ended]

end

/-- The one name that is bound before a program runs is that of the clock. -/
theorem new_read? (clock : Nat → Float) (output : Sink) {frame : FrameId} {name : String}
    {value : Value} (found : (new clock output).state.store.read? frame name = some value) :
    value = .native .clock := by
  have store : (new clock output).state.store = (Store.empty.push).write 0 "clock" (.native .clock) :=
    rfl
  rw [store, Store.read?_write _ _ _ _ _ _ (by decide), Store.read?_push] at found
  split at found
  · cases found
    rfl
  · cases found

/-- A program of the grammar is ready to run as soon as it is resolved. -/
theorem start_ready {attachment : Grammar.Attachment} {lexemes : List Lexeme} {program : Program}
    (forms : Grammar.Forms attachment lexemes program) (clock : Nat → Float) (output : Sink)
    (fuel : Nat) :
    Ready (loaded clock output program).context []
      ((loaded clock output program).start program fuel) := by
  refine ⟨⟨⟨rfl, ?_, ?_⟩, .globals⟩, nofun, forms.proper, false, table_agrees forms.distinct⟩
  · change 0 < ((Store.empty.push).write 0 "clock" _ : Store Value).frames.size
    exact Nat.lt_of_lt_of_le (by decide) (Keeps.write _ _ _ _).frames
  · intro frame name value found
    cases new_read? clock output found
    exact valid_of_not_closure nofun

end Interpreter

/-- A run of a text without syntax errors has the errors of the resolution first, and then at most
the one that it halts at. -/
theorem run_of_clean {text : String} (clean : (parse text).errors = []) (fuel : Nat)
    (clock : Nat → Float) (output : Sink) :
    run fuel clock output text =
      let ran := (Interpreter.loaded clock output (parse text).program).interpret fuel
        (parse text).program
      ⟨(resolve (parse text).program).errors ++ ran.1.error?.toList, ran.2.output, ran.1⟩ := by
  simp only [run, clean, List.isEmpty_nil, ↓reduceIte]
  rfl

/-- A text with syntax errors is not run. -/
theorem run_of_wrong {text : String} (wrong : (parse text).errors ≠ []) (fuel : Nat)
    (clock : Nat → Float) (output : Sink) :
    run fuel clock output text = ⟨(parse text).errors, output, .finished⟩ := by
  have some : (parse text).errors.isEmpty = false := by simpa using wrong
  simp only [run, some, Bool.false_eq_true, ↓reduceIte]

/-- A name that the frame at a distance binds can be read and assigned there. -/
theorem Store.access_of_bound {store : Store Value} {env : Env} {name : String} {distance : Nat}
    {frame : FrameId} (given : env.frames[distance]? = some frame)
    (bound : (store.read? frame name).isSome) :
    (∃ value, store.getAt env name distance = .ok value) ∧
      ∀ value, ∃ after, store.assignAt env name value distance = .ok after := by
  have found : store.frameAt env name distance = .ok frame := by
    simp only [Store.frameAt, given, bound, ↓reduceIte]
  obtain ⟨value, read⟩ := Option.isSome_iff_exists.1 bound
  have reading : store.readIn frame name = .ok value := by
    simp only [Store.readIn, read]
  refine ⟨⟨value, ?_⟩, fun new => ⟨store.write frame name new, ?_⟩⟩
  · rw [Store.getAt, found]
    exact reading
  · rw [Store.assignAt, found]
    rfl

/-- The resolution of a program agrees with a run of it from some moment on. -/
structure Agreement (context : Context) (start : Moment) (ending : Ending) : Prop where
  /-- A distance leads to a frame of the chain that is not the global one and binds the name, so
  that the value there can be read and assigned. -/
  bound : ∀ ⦃fuel env target state distance⦄,
    Reaches context start ⟨fuel, .access env target, state⟩ →
      context.distances[target.id]? = some distance →
        (∃ frame, env.frames[distance]? = some frame ∧ frame ≠ context.globals.frame ∧
          (state.store.read? frame target.name).isSome) ∧
        (∃ value, state.store.getAt env target.name distance = .ok value) ∧
        ∀ value, ∃ store, state.store.assignAt env target.name value distance = .ok store
  /-- No access goes beyond the last frame of an environment. -/
  inside : ∀ name, ending ≠ .halted (.lostScope name)
  /-- A name that is not defined is that of an access without a distance, to a global. -/
  undefined : ∀ ⦃name span⦄, ending = .halted (.error ⟨.notDefined name, span⟩) →
    ∃ fuel env target state, Reaches context start ⟨fuel, .access env target, state⟩ ∧
      target.name = name ∧ target.span = span ∧ context.distances[target.id]? = none ∧
      state.store.read? context.globals.frame name = none

/-- The way in which a program that is ready ends. -/
theorem interpret_ending {interpreter : Interpreter} {program : Program} {fuel : Nat}
    (ready : Ready interpreter.context [] (interpreter.start program fuel)) :
    (interpreter.interpret fuel program).1 = .finished ∨
      ∃ halt, (interpreter.interpret fuel program).1 = .halted halt ∧
        Explained interpreter.context (interpreter.start program fuel) halt := by
  have holds : Meets
      (runStmts interpreter.context fuel interpreter.context.globals program) interpreter.state _
      (Explained interpreter.context (interpreter.start program fuel)) :=
    (sound interpreter.context ready).holds
  unfold Meets at holds
  split at holds
  next ended =>
    rw [Interpreter.interpret_of_ok ended]
    exact .inl rfl
  next halt _ ended =>
    rw [Interpreter.interpret_of_error ended]
    exact .inr ⟨halt, rfl, holds⟩

/-- In every run of a text without syntax errors, also of one whose scopes are used wrongly, each
distance leads to a frame that binds the name. -/
theorem run_agrees {text : String} (clean : (parse text).errors = []) (fuel : Nat)
    (clock : Nat → Float) (output : Sink) :
    Agreement (Interpreter.loaded clock output (parse text).program).context
      ((Interpreter.loaded clock output (parse text).program).start (parse text).program fuel)
      (run fuel clock output text).ending := by
  have forms := ((Parser.parse_eq_iff text (parse text).program).1 (by rw [← clean])).2
  have ready := Interpreter.start_ready forms clock output fuel
  have same : (run fuel clock output text).ending =
      ((Interpreter.loaded clock output (parse text).program).interpret fuel
        (parse text).program).1 := by
    rw [run_of_clean clean]
  rw [same]
  have ended := interpret_ending ready
  constructor
  · intro left env target state distance reached found
    obtain ⟨scopes, placed, agrees⟩ := ready_of_reaches _ ready reached
    obtain ⟨frame, given, other, bound⟩ := placed.fits.frame_of_distance (agrees.symm.trans found)
    exact ⟨⟨frame, given, other, bound⟩, Store.access_of_bound given bound⟩
  · intro name lost
    rcases ended with finished | ⟨halt, halted, explained⟩
    · cases finished.symm.trans lost
    · cases halted.symm.trans lost
      cases explained
  · intro name span undefined
    rcases ended with finished | ⟨halt, halted, explained⟩
    · cases finished.symm.trans undefined
    · cases halted.symm.trans undefined
      cases explained with
      | type category => cases category
      | access reached missing unbound =>
          exact ⟨_, _, _, _, reached, rfl, rfl, missing, unbound⟩

/-- A closure that assigns a variable of a scope that has been left. -/
def counterText : String :=
  "fun make() \x7b var n; fun set(m) \x7b n = m; return n; \x7d return set; \x7d print make()(true);"

/-- A run in which a closure outlives its scope. -/
theorem run_agrees_closure :
    (parse counterText).errors = [] ∧
      Agreement (Interpreter.loaded (fun _ => 0) .unlimited (parse counterText).program).context
        ((Interpreter.loaded (fun _ => 0) .unlimited (parse counterText).program).start
          (parse counterText).program 100)
        (run 100 (fun _ => 0) .unlimited counterText).ending :=
  ⟨by decide +kernel, run_agrees (by decide +kernel) 100 (fun _ => 0) .unlimited⟩

end Lox
