import Lox.Proofs.Label.Relabeling
import Lox.Resolution

namespace Lox.Relabeling

open Resolution

variable (relabeling : Relabeling)

/-- A state of the resolution in which everything found has other labels. -/
def resolving (state : Resolution.State) : Resolution.State where
  scopes := state.scopes
  inFunction := state.inFunction
  distances := state.distances.map fun entry => (relabeling.ids entry.1, entry.2)
  errors := state.errors.map relabeling.located

section
variable (state : Resolution.State)

/-- An error is reported with its other label. -/
theorem resolving_report (error : Located Error) :
    (relabeling.resolving state).report (relabeling.located error) =
      relabeling.resolving (state.report error) := by
  simp only [State.report, resolving, Array.map_push]

/-- A distance is recorded for the other number. -/
theorem resolving_record (id distance : Nat) :
    (relabeling.resolving state).record (relabeling.ids id) distance =
      relabeling.resolving (state.record id distance) := by
  simp only [State.record, resolving, Array.map_push]

/-- Labels do not matter to the declaration of a name. -/
theorem resolving_declare (name : Name) :
    (relabeling.resolving state).declare (relabeling.located name) =
      relabeling.resolving (state.declare name) := by
  obtain ⟨scopes, inFunction, distances, errors⟩ := state
  cases scopes with
  | nil => rfl
  | cons scope outer =>
      by_cases bound : scope.binds name.item = true <;>
        simp [State.declare, State.report, resolving, located, bound]

/-- Labels do not matter to the definition of a name. -/
theorem resolving_define (name : Name) :
    (relabeling.resolving state).define (relabeling.located name) =
      relabeling.resolving (state.define name) := by
  obtain ⟨scopes, inFunction, distances, errors⟩ := state
  cases scopes <;> rfl

/-- Labels do not matter to the introduction of a name. -/
theorem resolving_introduce (name : Name) :
    (relabeling.resolving state).introduce (relabeling.located name) =
      relabeling.resolving (state.introduce name) := by
  rw [State.introduce, State.introduce, resolving_declare, resolving_define]

/-- An occurrence refers to the same scope with other labels. -/
theorem resolving_refer (target : Occurrence) :
    (relabeling.resolving state).refer (relabeling.occurrence target) =
      relabeling.resolving (state.refer target) := by
  have initializing : (relabeling.resolving state).isInitializing target.name =
      state.isInitializing target.name := rfl
  have distance (skipped : Nat) : (relabeling.resolving state).distance? skipped target.name =
      state.distance? skipped target.name := rfl
  simp only [State.refer, occurrence, initializing, distance]
  split
  · exact resolving_record relabeling state _ _
  · split
    · exact resolving_report relabeling state ⟨_, target.span⟩
    · rfl

theorem resolving_openScope :
    (relabeling.resolving state).openScope = relabeling.resolving state.openScope := rfl

theorem resolving_closeScope :
    (relabeling.resolving state).closeScope = relabeling.resolving state.closeScope := rfl

/-- Labels do not matter to parameters. -/
theorem resolving_parameters (parameters : List Name) :
    (parameters.map relabeling.located).foldl State.introduce (relabeling.resolving state) =
      relabeling.resolving (parameters.foldl State.introduce state) := by
  induction parameters generalizing state with
  | nil => rfl
  | cons name rest ih =>
      rw [List.map_cons, List.foldl_cons, resolving_introduce, ih, List.foldl_cons]

end

mutual

/-- An expression is resolved alike with other labels. -/
theorem resolveExpr_relabel (state : Resolution.State) : ∀ expr,
    resolveExpr (relabeling.resolving state) (relabeling.expr expr) =
      relabeling.resolving (resolveExpr state expr)
  | .literal _ _ => rfl
  | .variable target => resolving_refer relabeling state target
  | .assign _ target value => by
      simp only [Relabeling.expr, resolveExpr, resolveExpr_relabel state value, resolving_refer]
  | .group _ inner => resolveExpr_relabel state inner
  | .unary _ _ operand => resolveExpr_relabel state operand
  | .binary _ _ left right | .logical _ _ left right => by
      simp only [Relabeling.expr, resolveExpr, resolveExpr_relabel state left,
        resolveExpr_relabel _ right]
  | .call _ _ callee given => by
      simp only [Relabeling.expr, resolveExpr, resolveExpr_relabel state callee,
        resolveExprs_relabel _ given]

/-- Expressions are resolved alike with other labels. -/
theorem resolveExprs_relabel (state : Resolution.State) : ∀ exprs,
    resolveExprs (relabeling.resolving state) (relabeling.exprs exprs) =
      relabeling.resolving (resolveExprs state exprs)
  | [] => rfl
  | expr :: rest => by
      simp only [Relabeling.exprs, resolveExprs, resolveExpr_relabel state expr,
        resolveExprs_relabel _ rest]

end

/-- An expression that may be missing is resolved alike with other labels. -/
theorem resolveOption_relabel (state : Resolution.State) (given : Option Expr) :
    resolveOption (relabeling.resolving state) (given.map relabeling.expr) =
      relabeling.resolving (resolveOption state given) := by
  cases given with
  | none => rfl
  | some expr => exact resolveExpr_relabel relabeling state expr

mutual

/-- A statement is resolved alike with other labels. -/
theorem resolveStmt_relabel (state : Resolution.State) : ∀ stmt,
    resolveStmt (relabeling.resolving state) (relabeling.stmt stmt) =
      relabeling.resolving (resolveStmt state stmt)
  | .expression _ value | .print _ value => resolveExpr_relabel relabeling state value
  | .variable _ name initializer => by
      simp only [Relabeling.stmt, resolveStmt, resolving_declare, resolveOption_relabel,
        resolving_define]
  | .function _ name parameters body => by
      have opened : { ((relabeling.resolving state).introduce (relabeling.located name)).openScope
          with inFunction := true } =
          relabeling.resolving { (state.introduce name).openScope with inFunction := true } := by
        rw [resolving_introduce]
        rfl
      simp only [Relabeling.stmt, resolveStmt, opened, resolving_parameters,
        resolveStmts_relabel _ body]
      rfl
  | .block _ body => by
      simp only [Relabeling.stmt, resolveStmt, resolving_openScope, resolveStmts_relabel _ body,
        resolving_closeScope]
  | .branch _ condition consequent none => by
      simp only [Relabeling.stmt, resolveStmt, resolveExpr_relabel, resolveStmt_relabel _ consequent]
  | .branch _ condition consequent (some alternative) => by
      simp only [Relabeling.stmt, resolveStmt, resolveExpr_relabel,
        resolveStmt_relabel _ consequent, resolveStmt_relabel _ alternative]
  | .loop _ condition body => by
      simp only [Relabeling.stmt, resolveStmt, resolveExpr_relabel, resolveStmt_relabel _ body]
  | .giveBack _ keyword value => by
      have inside : (relabeling.resolving state).inFunction = state.inFunction := rfl
      simp only [Relabeling.stmt, resolveStmt, inside]
      split
      · exact resolveOption_relabel relabeling state value
      · rw [← resolveOption_relabel, ← resolving_report]
        rfl

/-- Statements are resolved alike with other labels. -/
theorem resolveStmts_relabel (state : Resolution.State) : ∀ stmts,
    resolveStmts (relabeling.resolving state) (relabeling.stmts stmts) =
      relabeling.resolving (resolveStmts state stmts)
  | [] => rfl
  | stmt :: rest => by
      simp only [Relabeling.stmts, resolveStmts, resolveStmt_relabel state stmt,
        resolveStmts_relabel _ rest]

end

/-- The resolution of a program with other labels. -/
theorem resolve_relabel (program : Program) :
    resolve (relabeling.stmts program) =
      ⟨(resolve program).distances.map fun entry => (relabeling.ids entry.1, entry.2),
        (resolve program).errors.map relabeling.located⟩ := by
  have whole := resolveStmts_relabel relabeling .initial program
  have start : relabeling.resolving .initial = .initial := by simp [resolving, State.initial]
  rw [start] at whole
  simp only [resolve, whole, resolving, Array.toList_map]

/-- Tables that accord still do so behind entries with new numbers. -/
theorem merge_relabel {relabeling : Relabeling} (different : Function.Injective relabeling.ids)
    {old other : Distances} (accords : ∀ id : Nat, other[relabeling.ids id]? = old[id]?)
    {found : List (Nat × Nat)} (id : Nat) :
    (other.merge (found.map fun entry => (relabeling.ids entry.1, entry.2)))[relabeling.ids id]? =
      (old.merge found)[id]? := by
  induction found generalizing old other with
  | nil => exact accords id
  | cons entry rest ih =>
      refine ih fun id => ?_
      simp only [Std.TreeMap.getElem?_insert, Nat.compare_eq_eq, different.eq_iff, accords]

end Lox.Relabeling
