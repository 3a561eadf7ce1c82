import Lox.Proofs.Label.Resolving
import Lox.Proofs.Label.Running
import Lox.Proofs.Run.Agreement

namespace Lox

namespace Relabeling

open Evaluation Lox.Computation

/-- The relabeling that moves every span but those of a list. -/
def keeping (spans : List Span) : Relabeling :=
  ⟨fun span => if span ∈ spans then span else ⟨span.start + 1, span.stop⟩, id⟩

/-- A span that is not moved is one of the list. -/
theorem mem_of_keeping {spans : List Span} {span : Span}
    (kept : (keeping spans).spans span = span) : span ∈ spans := by
  apply Decidable.by_contra
  intro other
  simp only [keeping, if_neg other] at kept
  have starts := congrArg Span.start kept
  simp at starts

/-- A program whose spans are kept stays as it is. -/
theorem keeping_stmts (program : Program) :
    (keeping (Stmt.spansAll program)).stmts program = program :=
  stmts_eq_self _ (fun _ given => if_pos given) fun _ _ => rfl

/-- A context accords with itself when the numbers stay as they are. -/
theorem accords_keeping (spans : List Span) (context : Context) :
    Accords (keeping spans) context context := ⟨rfl, rfl, fun _ => rfl⟩

/-- A new interpreter has stored no closure. -/
theorem state_new (relabeling : Relabeling) (clock : Nat → Float) (output : Sink) :
    relabeling.state (Interpreter.new clock output).state = (Interpreter.new clock output).state := by
  have store : (Interpreter.new clock output).state.store =
    (Store.empty.push).write 0 "clock" (.native .clock) := rfl
  have empty : (Store.empty : Store Value).mapValues relabeling.value = .empty := by
    simp [Store.empty, Store.mapValues]
  have same := Store.write_mapValues relabeling.value Store.empty.push 0 "clock" (.native .clock)
  rw [← Store.push_mapValues, empty] at same
  simp only [state, store, ← same, Relabeling.value]
  rfl

end Relabeling

open Relabeling Evaluation

/-- Every error of a resolution is at a span of the program. -/
theorem resolve_places {program : Program} {error : Located Error}
    (found : error ∈ (resolve program).errors) : error.span ∈ Stmt.spansAll program := by
  have same := congrArg Resolution.errors
    (resolve_relabel (keeping (Stmt.spansAll program)) program)
  rw [keeping_stmts] at same
  have kept := List.map_inj_left.1 ((List.map_id _).trans same) error found
  exact mem_of_keeping (congrArg Located.span kept.symm)

/-- The error that ends a program is at a span of the program. -/
theorem interpret_places {program : Program} {clock : Nat → Float} {output : Sink} {fuel : Nat}
    {error : Located Error}
    (halted : ((Interpreter.loaded clock output program).interpret fuel program).1 =
      .halted (.error error)) : error.span ∈ Stmt.spansAll program := by
  let loaded := Interpreter.loaded clock output program
  let keeps := keeping (Stmt.spansAll program)
  have carries := (carriesAll (accords_keeping (Stmt.spansAll program) loaded.context) fuel).stmts
    loaded.context.globals program
  rw [keeping_stmts] at carries
  have start : keeps.state loaded.state = loaded.state := state_new keeps clock output
  cases ended : runStmts loaded.context fuel loaded.context.globals program loaded.state with
  | ok flow after =>
      rw [Interpreter.interpret_of_ok ended] at halted
      cases halted
  | error stop after =>
      rw [Interpreter.interpret_of_error ended] at halted
      cases halted
      have again := carries.error ended
      rw [start, ended] at again
      injection again with same
      injection same with kept
      exact mem_of_keeping (congrArg Located.span kept.symm)

end Lox
