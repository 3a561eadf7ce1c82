/-
This file hands errors to their reader and remembers which kinds there were.
-/

import Lox.Report.Snippet
import Lox.Sink

namespace Lox.Report

/-- A reporter collects notices, or it writes a line for each error, or what is rendered for it. -/
inductive ReporterOf (render : Source → Located Error → String) where
  | notices (given : Array Notice)
  | lines (sink : Sink)
  | snippets (sink : Sink)

/-- The reporter of the program renders snippets. -/
abbrev Reporter := ReporterOf snippet

section
variable {render : Source → Located Error → String}

/-- A report that fails is left unfinished. After an unfinished snippet the line of the error
is written. -/
def ReporterOf.report (source : Source) (error : Located Error) :
    ReporterOf render → ReporterOf render
  | .notices given => .notices (given.push (Notice.of source error))
  | .lines sink => .lines (sink.write (Notice.of source error).text).2
  | .snippets sink =>
      match sink.write (render source error) with
      | (true, sink) => .snippets sink
      | (false, sink) => .snippets (sink.write (Notice.of source error).text).2

/-- The types whose values can be given the errors of a source. -/
class Reporting (ρ : Type) where
  report : Source → Located Error → ρ → ρ

instance : Reporting (ReporterOf render) := ⟨ReporterOf.report⟩

end

/-- The diagnostics of one source, which give its errors to a reporter of some type. -/
structure DiagnosticsOf (ρ : Type) where
  source : Source
  reporter : ρ
  hadError : Bool
  hadRuntimeError : Bool

abbrev Diagnostics := DiagnosticsOf Reporter

namespace DiagnosticsOf

variable {ρ : Type}

def new (source : Source) (reporter : ρ) : DiagnosticsOf ρ :=
  ⟨source, reporter, false, false⟩

variable [Reporting ρ]

/-- An error sets the flag of its phase, whether it can be written or not. -/
def report (diagnostics : DiagnosticsOf ρ) (error : Located Error) : DiagnosticsOf ρ :=
  { diagnostics with
    reporter := Reporting.report diagnostics.source error diagnostics.reporter
    hadError := diagnostics.hadError || error.item.phase = .static
    hadRuntimeError := diagnostics.hadRuntimeError || error.item.phase = .runtime }

def reportAll (diagnostics : DiagnosticsOf ρ) (errors : List (Located Error)) :
    DiagnosticsOf ρ :=
  errors.foldl report diagnostics

/-- Errors may be reported in two parts. -/
theorem reportAll_append (diagnostics : DiagnosticsOf ρ) (first second : List (Located Error)) :
    diagnostics.reportAll (first ++ second) =
      (diagnostics.reportAll first).reportAll second := by
  simp [reportAll]

end DiagnosticsOf

/-- The diagnostics of one source before any error. -/
def Diagnostics.new (source : Source) (reporter : Reporter) : Diagnostics :=
  DiagnosticsOf.new source reporter

end Lox.Report
