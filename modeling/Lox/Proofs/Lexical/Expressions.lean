import Lox.Proofs.Lexical.Declarations

namespace Lox.Lexical

open Lox.Computation Resolution
open Evaluation (Context)

/-- Statements end alike when both complete with environments that stand alike, or both give back
like values. -/
inductive Alike (context : Context) (env : Lox.Env) (scopes : List Scope) (world : World) :
    Evaluation.Flow → Flow → Prop
  | completed {lexical : Env} (stands : Stands context world env scopes lexical) :
      Alike context env scopes world .completed (.completed lexical)
  | returned {value : Lox.Value} {held : Value} (alike : Related context world value held) :
      Alike context env scopes world (.returned value) (.returned held)

/-- All work with an amount of fuel goes on alike in both runs. -/
structure Simulation (context : Context) (fuel : Nat) : Prop where
  expr : ∀ ⦃world env scopes locals expr⦄, Sees world env.frames scopes locals →
    Checked context (visitExpr scopes expr) →
      Simulates context (fun _ => False) world (Evaluation.evalExpr context fuel env expr)
        (evalExpr context.clock fuel locals expr) (Related context)
  exprs : ∀ ⦃world env scopes locals exprs⦄, Sees world env.frames scopes locals →
    Checked context (visitExprs scopes exprs) →
      Simulates context (fun _ => False) world (Evaluation.evalExprs context fuel env exprs)
        (evalExprs context.clock fuel locals exprs)
        (fun grown => List.Forall₂ (Related context grown))
  option : ∀ ⦃world env scopes locals given⦄, Sees world env.frames scopes locals →
    Checked context (visitOption scopes given) →
      Simulates context (fun _ => False) world (Evaluation.evalOption context fuel env given)
        (evalOption context.clock fuel locals given) (Related context)
  call : ∀ ⦃world callee held given same⦄, Related context world callee held →
    List.Forall₂ (Related context world) given same → ∀ span,
      Simulates context (fun _ => False) world (Evaluation.call context fuel callee given span)
        (call context.clock fuel held same span) (Related context)
  stmt : ∀ ⦃world env scopes lexical inFunction stmt⦄, Stands context world env scopes lexical →
    stmt.Proper → Checked context (visitStmt scopes inFunction stmt) →
      Simulates context (· = env.frame) world (Evaluation.runStmt context fuel env stmt)
        (runStmt context.clock fuel lexical stmt) (Alike context env (scopesAfter scopes stmt))
  loop : ∀ ⦃world env scopes lexical inFunction condition body⦄,
    Stands context world env scopes lexical → body.declares = false → body.Proper →
      Checked context (visitExpr scopes condition) →
        Checked context (visitStmt scopes inFunction body) →
          Simulates context (· = env.frame) world
            (Evaluation.runLoop context fuel env condition body)
            (runLoop context.clock fuel lexical condition body) (Alike context env scopes)
  stmts : ∀ ⦃world env scopes lexical inFunction stmts⦄, Stands context world env scopes lexical →
    Stmt.ProperAll stmts → Checked context (visitStmts scopes inFunction stmts) →
      Simulates context (· = env.frame) world (Evaluation.runStmts context fuel env stmts)
        (runStmts context.clock fuel lexical stmts)
        (Alike context env (scopesAfterAll scopes stmts))

section
variable {context : Context} {fuel : Nat} (parts : Simulation context fuel) {world : World}
  {env : Lox.Env} {scopes : List Scope} {locals : Locals}
  (sees : Sees world env.frames scopes locals)
include parts sees

/-- One more unit of fuel keeps the two evaluations of an expression together. -/
theorem expr_simulates {expr : Expr} (checked : Checked context (visitExpr scopes expr)) :
    Simulates context (fun _ => False) world (Evaluation.evalExpr context (fuel + 1) env expr)
      (evalExpr context.clock (fuel + 1) locals expr) (Related context) := by
  cases expr with
  | literal span value => exact .pure (.ofLiteral value)
  | «variable» target =>
      rw [visitExpr] at checked
      exact read_simulates sees checked.distance
  | assign span target value =>
      rw [visitExpr, checked_append] at checked
      rw [Evaluation.evalExpr, evalExpr]
      refine (parts.expr sees checked.1).bind fun grown value same grows alike => ?_
      refine (assign_simulates (sees.grow grows) checked.2.distance alike).map ?_
      intro final _ _ growsOn _
      exact alike.grow growsOn
  | group span inner =>
      rw [visitExpr] at checked
      exact parts.expr sees checked
  | unary span op operand =>
      rw [visitExpr] at checked
      rw [Evaluation.evalExpr, evalExpr]
      refine (parts.expr sees checked).bind fun grown value same grows alike => ?_
      exact applyUnary_simulates alike op
  | binary span op left right =>
      rw [visitExpr, checked_append] at checked
      rw [Evaluation.evalExpr, evalExpr]
      refine (parts.expr sees checked.1).bind fun grown value same grows first => ?_
      refine (parts.expr (sees.grow grows) checked.2).bind ?_
      intro final other another growsOn second
      exact applyBinary_simulates (first.grow growsOn) second op
  | logical span op left right =>
      rw [visitExpr, checked_append] at checked
      rw [Evaluation.evalExpr, evalExpr]
      refine (parts.expr sees checked.1).bind fun grown value same grows alike => ?_
      rw [alike.isDecidedBy]
      split
      next => exact .pure alike
      next => exact parts.expr (sees.grow grows) checked.2
  | call span paren callee given =>
      rw [visitExpr, checked_append] at checked
      rw [Evaluation.evalExpr, evalExpr]
      refine (parts.expr sees checked.1).bind fun grown value same grows alike => ?_
      rw [alike.isCallable]
      split
      next =>
        refine (parts.exprs (sees.grow grows) checked.2).bind ?_
        intro final values others growsOn passed
        exact parts.call (alike.grow growsOn) passed paren
      next => exact notCallable_simulates alike paren

/-- One more unit of fuel keeps the two evaluations of several expressions together. -/
theorem exprs_simulates {exprs : List Expr} (checked : Checked context (visitExprs scopes exprs)) :
    Simulates context (fun _ => False) world (Evaluation.evalExprs context (fuel + 1) env exprs)
      (evalExprs context.clock (fuel + 1) locals exprs)
      (fun grown => List.Forall₂ (Related context grown)) := by
  cases exprs with
  | nil => exact .pure .nil
  | cons expr rest =>
      rw [visitExprs, checked_append] at checked
      rw [Evaluation.evalExprs, evalExprs]
      refine (parts.expr sees checked.1).bind fun grown value same grows alike => ?_
      refine (parts.exprs (sees.grow grows) checked.2).map ?_
      intro final values others growsOn passed
      exact .cons (alike.grow growsOn) passed

/-- One more unit of fuel keeps the two evaluations of an absent or present expression together. -/
theorem option_simulates {given : Option Expr}
    (checked : Checked context (visitOption scopes given)) :
    Simulates context (fun _ => False) world (Evaluation.evalOption context (fuel + 1) env given)
      (evalOption context.clock (fuel + 1) locals given) (Related context) := by
  cases given with
  | none => exact .pure .nil
  | some expr => exact parts.expr sees checked

end

end Lox.Lexical
