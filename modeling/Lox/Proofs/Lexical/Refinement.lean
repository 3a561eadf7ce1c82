import Lox.Proofs.Lexical.Statements
import Lox.Proofs.Run.Fuel
import Lox.Proofs.Run.Phases

namespace Lox.Lexical

open Resolution

/-- Before a program runs, there is the global frame and no variable. -/
def World.initial : World := ⟨1, fun _ _ => none⟩

/-- The globals before a program runs are the same in both runs. -/
theorem initial_related (clock : Nat → Float) (output : Sink) (program : Program) :
    RelatedStates (Interpreter.loaded clock output program).context .initial
      (Interpreter.loaded clock output program).state ⟨.initial, output, 0, 0⟩ := by
  refine ⟨⟨rfl, rfl, Nat.zero_lt_one, nofun, nofun, ?_⟩, rfl, rfl, rfl⟩
  intro name
  have store : (Interpreter.loaded clock output program).state.store =
      (Store.empty.push).write 0 "clock" (.native .clock) := rfl
  have globals : Memory.initial.globals = Bindings.put [] "clock" (.native .clock) := rfl
  rw [Interpreter.loaded_globals, store, globals, Store.read?_write _ _ _ _ _ _ (by decide),
    Store.read?_push, Bindings.value?_put]
  by_cases same : "clock" = name
  · rw [if_pos ⟨rfl, same⟩, if_pos same]
    exact .some (.native .clock)
  · rw [if_neg fun both => same both.2, if_neg same]
    exact .none

/-- The visits of a program without errors are checked by its own table. -/
theorem program_checked {program : Program} (distinct : (idsOf (visitProgram program)).Nodup)
    (resolved : (resolve program).errors = []) (clock : Nat → Float) (output : Sink) :
    Checked (Interpreter.loaded clock output program).context (visitProgram program) := by
  refine ⟨table_agrees distinct, fun visit visited => ?_⟩
  rw [resolve_eq] at resolved
  exact List.filterMap_eq_nil_iff.1 resolved visit visited

/-- With any amount of fuel a program of the grammar without errors in the use of scopes runs alike
with frames and with locations. -/
theorem run_of_eq {attachment : Grammar.Attachment} {lexemes : List Lexeme} {program : Program}
    (forms : Grammar.Forms attachment lexemes program) (resolved : (resolve program).errors = [])
    (fuel : Nat) (clock : Nat → Float) (output : Sink) :
    Run.of fuel clock output program = run fuel clock output program := by
  have checked := program_checked forms.distinct resolved clock output
  have whole := (simulation _ fuel).stmts .top forms.proper checked
    (initial_related clock output program)
  rw [Run.of, resolved, Interpreter.execute, run]
  split at whole
  next after _ stored ended finished =>
    obtain ⟨_, _, related, _⟩ := whole
    have finished : runStmts clock fuel .top program ⟨.initial, output, 0, 0⟩ =
        .ok _ stored := finished
    rw [Interpreter.interpret_of_ok ended, EStateM.run, finished]
    exact congrArg (fun output => (⟨[], output, .finished⟩ : Run)) related.output
  next halt after stop stored ended finished =>
    obtain ⟨rfl, same⟩ := whole
    have finished : runStmts clock fuel .top program ⟨.initial, output, 0, 0⟩ =
        .error _ stored := finished
    rw [Interpreter.interpret_of_error ended, EStateM.run, finished]
    exact congrArg (fun output => (⟨_, output, .halted halt⟩ : Run)) same
  next => exact whole.elim

/-- With any amount of fuel a text without errors runs alike with frames and with locations. -/
theorem run_eq {text : String} (clean : (parse text).errors = [])
    (resolved : (resolve (parse text).program).errors = []) (fuel : Nat) (clock : Nat → Float)
    (output : Sink) :
    Lox.run fuel clock output text = run fuel clock output (parse text).program := by
  have forms := (Parser.forms_of_clean clean).2
  rw [run_eq_of_clean clean]
  exact run_of_eq forms resolved fuel clock output

/-- Some runs, one for each amount of fuel, end with a result when one of them has it and does not
use up its fuel. -/
def EndsWith (runs : Nat → Run) (result : Run) : Prop :=
  ∃ fuel, runs fuel = result ∧ result.ending ≠ .halted .outOfFuel

/-- A text without errors has one result at most. -/
theorem result_unique {text : String} {clock : Nat → Float} {output : Sink} {result other : Run}
    (ends : EndsWith (fun fuel => Lox.run fuel clock output text) result)
    (again : EndsWith (fun fuel => Lox.run fuel clock output text) other) : result = other := by
  obtain ⟨fuel, rfl, ended⟩ := ends
  obtain ⟨more, rfl, endedAgain⟩ := again
  rcases Nat.le_total fuel more with enough | enough
  · exact (run_of_more enough ended).symm
  · exact run_of_more enough endedAgain

/-- A text without syntax errors and without errors in the use of scopes ends exactly if it ends
with locations in the place of frames and distances, and then with the same errors, the same output
and in the same way. -/
theorem run_refines {text : String} (clean : (parse text).errors = [])
    (resolved : (resolve (parse text).program).errors = []) (clock : Nat → Float)
    (output : Sink) :
    (∀ result, EndsWith (fun fuel => Lox.run fuel clock output text) result ↔
      EndsWith (fun fuel => run fuel clock output (parse text).program) result) ∧
    ∀ result other, EndsWith (fun fuel => Lox.run fuel clock output text) result →
      EndsWith (fun fuel => run fuel clock output (parse text).program) other →
        result = other := by
  have same : (fun fuel => Lox.run fuel clock output text) =
      fun fuel => run fuel clock output (parse text).program := by
    funext fuel
    exact run_eq clean resolved fuel clock output
  constructor
  · intro result
    rw [same]
  · intro result other ends again
    rw [← same] at again
    exact result_unique ends again

/-- A function that sees a variable, and a later variable of the same name that it does not see. -/
def shadowText : String :=
  "var a = true; \x7b fun show() \x7b print a; \x7d var a = false; show(); print a; \x7d"

/-- The function reads the variable that it sees, whether frames or locations hold it. -/
theorem run_refines_shadow :
    (parse shadowText).errors = [] ∧ (resolve (parse shadowText).program).errors = [] ∧
    (∀ result, EndsWith (fun fuel => Lox.run fuel (fun _ => 0) .unlimited shadowText) result ↔
      EndsWith (fun fuel => run fuel (fun _ => 0) .unlimited (parse shadowText).program) result) ∧
    ∀ result other,
      EndsWith (fun fuel => Lox.run fuel (fun _ => 0) .unlimited shadowText) result →
        EndsWith (fun fuel => run fuel (fun _ => 0) .unlimited (parse shadowText).program) other →
          result = other :=
  ⟨by decide +kernel, by decide +kernel,
    run_refines (by decide +kernel) (by decide +kernel) (fun _ => 0) .unlimited⟩

end Lox.Lexical
