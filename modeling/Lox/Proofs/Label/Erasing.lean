import Lox.Proofs.Label.Places
import Lox.Proofs.Run.Phases

namespace Lox

namespace Relabeling

open Evaluation

/-- One relabeling after another one. -/
def comp (second first : Relabeling) : Relabeling :=
  ⟨second.spans ∘ first.spans, second.ids ∘ first.ids⟩

section
variable (second first : Relabeling)

mutual

/-- Labels of an expression that are changed twice are changed once by both changes. -/
theorem expr_comp : ∀ given : Expr, second.expr (first.expr given) = (second.comp first).expr given
  | .literal _ _ | .variable _ => rfl
  | .assign _ _ value => congrArg (Expr.assign _ _) (expr_comp value)
  | .group _ inner => congrArg (Expr.group _) (expr_comp inner)
  | .unary _ _ operand => congrArg (Expr.unary _ _) (expr_comp operand)
  | .binary _ _ left right => congrArg₂ (Expr.binary _ _) (expr_comp left) (expr_comp right)
  | .logical _ _ left right => congrArg₂ (Expr.logical _ _) (expr_comp left) (expr_comp right)
  | .call _ _ callee given => congrArg₂ (Expr.call _ _) (expr_comp callee) (exprs_comp given)

/-- Labels of expressions that are changed twice are changed once by both changes. -/
theorem exprs_comp : ∀ given : List Expr,
    second.exprs (first.exprs given) = (second.comp first).exprs given
  | [] => rfl
  | expr :: rest => congrArg₂ List.cons (expr_comp expr) (exprs_comp rest)

end

theorem option_comp (given : Option Expr) :
    (given.map first.expr).map second.expr = given.map (second.comp first).expr := by
  cases given with
  | none => rfl
  | some given => exact congrArg some (expr_comp second first given)

mutual

/-- Labels of a statement that are changed twice are changed once by both changes. -/
theorem stmt_comp : ∀ given : Stmt, second.stmt (first.stmt given) = (second.comp first).stmt given
  | .expression _ value => congrArg (Stmt.expression _) (expr_comp second first value)
  | .print _ value => congrArg (Stmt.print _) (expr_comp second first value)
  | .variable _ _ initializer =>
      congrArg (Stmt.variable _ _) (option_comp second first initializer)
  | .function _ _ parameters body => by
      simp only [stmt, List.map_map, stmts_comp body]
      rfl
  | .block _ body => congrArg (Stmt.block _) (stmts_comp body)
  | .branch _ condition consequent none =>
      congrArg₂ (Stmt.branch _ · · none) (expr_comp second first condition) (stmt_comp consequent)
  | .branch _ condition consequent (some alternative) => by
      simp only [stmt, expr_comp, stmt_comp consequent, stmt_comp alternative]
      rfl
  | .loop _ condition body =>
      congrArg₂ (Stmt.loop _) (expr_comp second first condition) (stmt_comp body)
  | .giveBack _ _ value => congrArg (Stmt.giveBack _ _) (option_comp second first value)

/-- Labels of statements that are changed twice are changed once by both changes. -/
theorem stmts_comp : ∀ given : List Stmt,
    second.stmts (first.stmts given) = (second.comp first).stmts given
  | [] => rfl
  | stmt :: rest => congrArg₂ List.cons (stmt_comp stmt) (stmts_comp rest)

end

end

/-- The relabeling that takes the spans away and keeps the numbers. -/
def unspanned : Relabeling := ⟨fun _ => .empty 0, id⟩

def ending (relabeling : Relabeling) : Ending → Ending
  | .finished => .finished
  | .halted halt => .halted (relabeling.halt halt)

/-- A run ends with the same error under other labels, up to its span. -/
theorem ending_item (relabeling : Relabeling) (ending : Ending) :
    (relabeling.ending ending).error?.map Located.item = ending.error?.map Located.item := by
  cases ending with
  | finished => rfl
  | halted halt => cases halt <;> rfl

section
variable {relabeling : Relabeling} (keeps : relabeling.ids = id)
include keeps

/-- New spans do not matter when they are taken away. -/
theorem unspanned_stmts (program : Program) :
    unspanned.stmts (relabeling.stmts program) = unspanned.stmts program := by
  have same : unspanned.comp relabeling = unspanned := by
    rw [comp, keeps]
    rfl
  rw [stmts_comp, same]

/-- Other spans give the same distances, and the same errors at those spans. -/
theorem resolve_spans (program : Program) :
    resolve (relabeling.stmts program) =
      ⟨(resolve program).distances, (resolve program).errors.map relabeling.located⟩ := by
  rw [resolve_relabel, keeps]
  simp

end

section
variable {relabeling : Relabeling} (different : Function.Injective relabeling.ids)
include different

/-- Programs that differ in their labels get tables that accord. -/
theorem accords_loaded (clock : Nat → Float) (output : Sink) (program : Program) :
    Accords relabeling (Interpreter.loaded clock output program).context
      (Interpreter.loaded clock output (relabeling.stmts program)).context where
  globals := rfl
  clock := rfl
  distances id := by
    simp only [Interpreter.loaded, Interpreter.resolve, resolve_relabel]
    exact merge_relabel different (fun _ => rfl) id

/-- A program with other spans and other numbers runs alike. -/
theorem execute_relabel (fuel : Nat) (clock : Nat → Float) (output : Sink) (program : Program) :
    let ran := Interpreter.execute fuel clock output program
    let again := Interpreter.execute fuel clock output (relabeling.stmts program)
    again.1 = relabeling.ending ran.1 ∧ again.2.output = ran.2.output := by
  intro ran again
  let loaded := Interpreter.loaded clock output program
  have start : (Interpreter.loaded clock output (relabeling.stmts program)).state =
      relabeling.state loaded.state := (state_new relabeling clock output).symm
  have accords := accords_loaded different clock output program
  have carries := (carriesAll accords fuel).stmts loaded.context.globals program loaded.state
  rw [← start] at carries
  simp only [ran, again, Interpreter.execute]
  cases ended : runStmts loaded.context fuel loaded.context.globals program loaded.state with
  | ok flow after =>
      rw [ended] at carries
      rw [Interpreter.interpret_of_ok ended, Interpreter.interpret_of_ok carries]
      exact ⟨rfl, rfl⟩
  | error halt after =>
      rw [ended] at carries
      rw [Interpreter.interpret_of_error ended, Interpreter.interpret_of_error carries]
      exact ⟨rfl, rfl⟩

end

end Relabeling

/-- Two runs print the same, report the same errors and end in the same way, apart from spans. -/
structure Run.Alike (first second : Run) : Prop where
  output : second.output = first.output
  errors : second.errors.map Located.item = first.errors.map Located.item
  ending : Relabeling.unspanned.ending second.ending = Relabeling.unspanned.ending first.ending

namespace Run.Alike

open Report

/-- The errors of runs that are alike set the same flags. -/
theorem flags {first second : Run} {ρ : Type} [Reporting ρ] (alike : Alike first second)
    (source other : Source) (reporter : ρ) :
    ((DiagnosticsOf.new other reporter).reportAll second.errors).hadError =
        ((DiagnosticsOf.new source reporter).reportAll first.errors).hadError ∧
      ((DiagnosticsOf.new other reporter).reportAll second.errors).hadRuntimeError =
        ((DiagnosticsOf.new source reporter).reportAll first.errors).hadRuntimeError := by
  have any (phase : Error.Phase) : (second.errors.any fun error => error.item.phase = phase) =
      first.errors.any fun error => error.item.phase = phase := by
    have same := congrArg (List.any · fun item => item.phase = phase) alike.errors
    simp only [List.any_map] at same
    exact same
  simp only [DiagnosticsOf.reportAll_hadError, DiagnosticsOf.reportAll_hadRuntimeError, any]
  exact ⟨rfl, rfl⟩

/-- Programs that differ in their labels run alike. -/
theorem of_relabeling {relabeling : Relabeling} (different : Function.Injective relabeling.ids)
    (fuel : Nat) (clock : Nat → Float) (output : Sink) (program : Program) :
    Alike (.of fuel clock output program) (.of fuel clock output (relabeling.stmts program)) := by
  obtain ⟨ending, same⟩ := Relabeling.execute_relabel different fuel clock output program
  refine ⟨same, ?_, ?_⟩
  · simp only [Run.of, Relabeling.resolve_relabel, ending, List.map_append, List.map_map,
      ← Option.toList_map, Relabeling.ending_item]
    rfl
  · simp only [Run.of, ending]
    cases (Interpreter.execute fuel clock output program).1 with
    | finished => rfl
    | halted halt => cases halt <;> rfl

/-- Programs that differ in their spans run alike. -/
theorem of_spans {relabeling : Relabeling} (keeps : relabeling.ids = id) (fuel : Nat)
    (clock : Nat → Float) (output : Sink) (program : Program) :
    Alike (.of fuel clock output program) (.of fuel clock output (relabeling.stmts program)) :=
  of_relabeling (keeps ▸ Function.injective_id) fuel clock output program

theorem symm {first second : Run} (alike : Alike first second) : Alike second first :=
  ⟨alike.output.symm, alike.errors.symm, alike.ending.symm⟩

theorem trans {first second third : Run} (alike : Alike first second)
    (also : Alike second third) : Alike first third :=
  ⟨also.output.trans alike.output, also.errors.trans alike.errors,
    also.ending.trans alike.ending⟩

end Run.Alike

end Lox
