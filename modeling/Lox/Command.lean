/-
This file gives what the command that runs a script prints and how it exits.
-/

import Lox.Interpreter
import Lox.Report.Diagnostics

namespace Lox.Command

open Report (Diagnostics DiagnosticsOf Reporter ReporterOf)

/-- A command succeeds, or the errors of the script or of its file decide how it exits. -/
inductive Exit where
  | success
  | unreadable
  | staticError
  | runtimeError
  deriving DecidableEq, Repr

def Exit.code : Exit → Nat
  | .success => 0
  | .unreadable => 1
  | .staticError => 65
  | .runtimeError => 70

/-- A static error counts for more than a runtime error. -/
def Exit.of {ρ : Type} (diagnostics : DiagnosticsOf ρ) : Exit :=
  if diagnostics.hadError then .staticError
  else if diagnostics.hadRuntimeError then .runtimeError
  else .success

/-- A run cannot use up this fuel in any time that a reader would wait for. -/
def ampleFuel : Nat := Nat.pow 2 62

/-- The bytes that the command writes, and its exit. -/
structure Outcome where
  exit : Exit
  output : ByteArray
  errors : ByteArray

/-- The reporter of the command writes one line for each error if that is asked for. -/
def reporter (plain : Bool) : Reporter :=
  if plain then .lines .unlimited else .snippets .unlimited

def written {render : Report.Source → Located Error → String} : ReporterOf render → ByteArray
  | .notices _ => .empty
  | .lines sink | .snippets sink => sink.contents

/-- A script is run, and its errors are reported. -/
def runScript (fuel : Nat) (clock : Nat → Float) (plain : Bool) (source : Report.Source) :
    Outcome :=
  let run := Lox.run fuel clock .unlimited source.text
  let diagnostics := (Diagnostics.new source (reporter plain)).reportAll run.errors
  ⟨.of diagnostics, run.output.contents, written diagnostics.reporter⟩

/-- A file cannot be read for the given reason. -/
def unreadable (name reason : String) : Outcome :=
  ⟨.unreadable, .empty,
    s!"Error: could not read file: {name}\n\nCaused by:\n    {reason}\n".toUTF8⟩

/-- The reason why a missing file cannot be read. -/
def missingFile : String := "No such file or directory (os error 2)"

/-- The reason why a file that holds other bytes than text cannot be read. -/
def invalidText : String := "stream did not contain valid UTF-8"

/-- A script is a file that holds text, unless there is a reason why it cannot be read. -/
def run (fuel : Nat) (clock : Nat → Float) (plain : Bool) (name : String)
    (contents : Except String ByteArray) : Outcome :=
  match contents with
  | .error reason => unreadable name reason
  | .ok bytes =>
      match String.fromUTF8? bytes with
      | none => unreadable name invalidText
      | some text => runScript fuel clock plain ⟨name, text⟩

end Lox.Command
