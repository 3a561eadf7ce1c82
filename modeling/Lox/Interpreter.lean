/-
This file runs programs one after another, and single programs from their text on.
-/

import Lox.Evaluation
import Lox.Tree.Parser

namespace Lox

open Evaluation (Context State Halt)

/-- An interpreter keeps the globals and the distances of all programs that it has met. -/
structure Interpreter where
  context : Context
  state : State

/-- A run finishes, or it halts in one of three ways. -/
inductive Ending where
  | finished
  | halted (halt : Halt)

namespace Interpreter

/-- A new interpreter has the native functions as its globals. -/
def new (clock : Nat → Float) (output : Sink) : Interpreter :=
  let (globals, store) := Store.empty.root
  let store := Native.all.foldl
    (fun store native => store.define globals native.name (.native native)) store
  ⟨⟨globals, ∅, clock⟩, ⟨store, output, 0, 0⟩⟩

def output (interpreter : Interpreter) : Sink := interpreter.state.output

/-- The distances of a program join those of earlier programs. -/
def resolve (interpreter : Interpreter) (program : Program) :
    Interpreter × List (Located Error) :=
  let resolution := Lox.resolve program
  let distances := interpreter.context.distances.merge resolution.distances
  ({ interpreter with context := { interpreter.context with distances } }, resolution.errors)

/-- A computation changes the state of the interpreter and has a value or halts. -/
def perform {α : Type} (interpreter : Interpreter) (compute : Evaluation.Eval α) :
    Except Halt α × Interpreter :=
  match compute.run interpreter.state with
  | .ok value state => (.ok value, { interpreter with state })
  | .error halt state => (.error halt, { interpreter with state })

/-- The statements of a program run in the globals. One that gives back a value ends the
program. -/
def interpret (fuel : Nat) (interpreter : Interpreter) (program : Program) :
    Ending × Interpreter :=
  let context := interpreter.context
  match interpreter.perform (Evaluation.runStmts context fuel context.globals program) with
  | (.ok _, interpreter) => (.finished, interpreter)
  | (.error halt, interpreter) => (.halted halt, interpreter)

/-- A value is called with arguments, and errors of the call itself have the given span. -/
def call (fuel : Nat) (interpreter : Interpreter) (callee : Value) (given : List Value)
    (span : Span) : Except Halt Value × Interpreter :=
  interpreter.perform (Evaluation.call interpreter.context fuel callee given span)

/-- A new environment without bindings and without a frame outside of it. -/
def newEnv (interpreter : Interpreter) : Env × Interpreter :=
  let (env, store) := interpreter.state.store.root
  (env, { interpreter with state := { interpreter.state with store } })

end Interpreter

/-- The error that a run ends with. -/
def Ending.error? : Ending → Option (Located Error)
  | .halted (.error error) => some error
  | .halted (.lostScope _) | .halted .outOfFuel | .finished => none

/-- A run has errors in the order in which they are reported, an output and an ending. -/
structure Run where
  errors : List (Located Error)
  output : Sink
  ending : Ending

/-- A text with syntax errors is not run. Errors in the use of scopes do not keep a program
from running, and the first error of the run ends it. -/
def run (fuel : Nat) (clock : Nat → Float) (output : Sink) (text : String) : Run :=
  let parsed := parse text
  if parsed.errors.isEmpty then
    let (interpreter, errors) := (Interpreter.new clock output).resolve parsed.program
    let (ending, interpreter) := interpreter.interpret fuel parsed.program
    ⟨errors ++ ending.error?.toList, interpreter.output, ending⟩
  else
    ⟨parsed.errors, output, .finished⟩

end Lox
