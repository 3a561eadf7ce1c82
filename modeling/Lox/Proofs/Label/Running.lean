import Lox.Proofs.Label.Carrying

namespace Lox.Relabeling

open Evaluation Lox.Computation

section
variable (relabeling : Relabeling) (context other : Context)

/-- All work with an amount of fuel carries over to the same work with other labels. -/
structure CarriesAll (fuel : Nat) : Prop where
  expr : ∀ env expr, Carries relabeling relabeling.value (evalExpr context fuel env expr)
    (evalExpr other fuel env (relabeling.expr expr))
  exprs : ∀ env exprs, Carries relabeling (List.map relabeling.value)
    (evalExprs context fuel env exprs) (evalExprs other fuel env (relabeling.exprs exprs))
  option : ∀ env given, Carries relabeling relabeling.value (evalOption context fuel env given)
    (evalOption other fuel env (given.map relabeling.expr))
  call : ∀ callee given span, Carries relabeling relabeling.value
    (call context fuel callee given span)
    (call other fuel (relabeling.value callee) (given.map relabeling.value)
      (relabeling.spans span))
  stmt : ∀ env stmt, Carries relabeling relabeling.flow (runStmt context fuel env stmt)
    (runStmt other fuel env (relabeling.stmt stmt))
  loop : ∀ env condition body, Carries relabeling relabeling.flow
    (runLoop context fuel env condition body)
    (runLoop other fuel env (relabeling.expr condition) (relabeling.stmt body))
  stmts : ∀ env stmts, Carries relabeling relabeling.flow (runStmts context fuel env stmts)
    (runStmts other fuel env (relabeling.stmts stmts))

end

section
variable {relabeling : Relabeling} {context other : Context} {fuel : Nat}
  (parts : CarriesAll relabeling context other fuel)
include parts

/-- Arguments are evaluated alike with other labels. -/
theorem exprs_carries (env : Env) (exprs : List Expr) :
    Carries relabeling (List.map relabeling.value) (evalExprs context (fuel + 1) env exprs)
      (evalExprs other (fuel + 1) env (relabeling.exprs exprs)) := by
  cases exprs with
  | nil => exact .pure rfl
  | cons expr rest =>
      rw [Relabeling.exprs, evalExprs, evalExprs]
      apply (parts.expr env expr).bind
      intro first
      exact (parts.exprs env rest).bind fun others => .pure rfl

/-- An expression that may be missing is evaluated alike with other labels. -/
theorem option_carries (env : Env) (given : Option Expr) :
    Carries relabeling relabeling.value (evalOption context (fuel + 1) env given)
      (evalOption other (fuel + 1) env (given.map relabeling.expr)) := by
  cases given with
  | none => exact .pure rfl
  | some expr => exact parts.expr env expr

/-- A loop runs alike with other labels. -/
theorem loop_carries (env : Env) (condition : Expr) (body : Stmt) :
    Carries relabeling relabeling.flow (runLoop context (fuel + 1) env condition body)
      (runLoop other (fuel + 1) env (relabeling.expr condition) (relabeling.stmt body)) := by
  rw [runLoop, runLoop]
  apply (parts.expr env condition).bind
  intro given
  rw [value_isTrue]
  split
  next =>
    apply (parts.stmt env body).bind
    intro flow
    cases flow with
    | completed => exact parts.loop env condition body
    | returned value => exact .pure rfl
  next => exact .pure rfl

/-- Statements run alike with other labels. -/
theorem stmts_carries (env : Env) (stmts : List Stmt) :
    Carries relabeling relabeling.flow (runStmts context (fuel + 1) env stmts)
      (runStmts other (fuel + 1) env (relabeling.stmts stmts)) := by
  cases stmts with
  | nil => exact .pure rfl
  | cons stmt rest =>
      rw [Relabeling.stmts, runStmts, runStmts]
      apply (parts.stmt env stmt).bind
      intro flow
      cases flow with
      | completed => exact parts.stmts env rest
      | returned value => exact .pure rfl

/-- A statement runs alike with other labels. -/
theorem stmt_carries (env : Env) (stmt : Stmt) :
    Carries relabeling relabeling.flow (runStmt context (fuel + 1) env stmt)
      (runStmt other (fuel + 1) env (relabeling.stmt stmt)) := by
  cases stmt with
  | expression span value =>
      rw [Relabeling.stmt, runStmt, runStmt, discard_bind, discard_bind]
      exact (parts.expr env value).bind fun _ => .pure rfl
  | print span value =>
      rw [Relabeling.stmt, runStmt, runStmt]
      apply (parts.expr env value).bind
      intro given
      exact printLine_carries.bind fun _ => .pure rfl
  | «variable» span name initializer =>
      rw [Relabeling.stmt, runStmt, runStmt]
      apply (parts.option env initializer).bind
      intro given
      exact define_carries.bind fun _ => .pure rfl
  | function span name parameters body =>
      rw [Relabeling.stmt, runStmt, runStmt]
      apply makeClosure_carries.bind
      intro given
      exact define_carries.bind fun _ => .pure rfl
  | block span body =>
      rw [Relabeling.stmt, runStmt, runStmt]
      exact nest_carries.bind fun inner => parts.stmts inner body
  | branch span condition consequent alternative =>
      rw [stmt_branch, runStmt_branch, runStmt_branch]
      apply (parts.expr env condition).bind
      intro given
      rw [value_isTrue]
      split
      next => exact parts.stmt env consequent
      next =>
        cases alternative with
        | some alternative => exact parts.stmt env alternative
        | none => exact .pure rfl
  | loop span condition body => exact parts.loop env condition body
  | giveBack span keyword value =>
      rw [Relabeling.stmt, runStmt, runStmt]
      exact (parts.option env value).bind fun given => .pure rfl

variable (accords : Accords relabeling context other)
include accords

/-- An expression is evaluated alike with other labels. -/
theorem expr_carries (env : Env) (expr : Expr) :
    Carries relabeling relabeling.value (evalExpr context (fuel + 1) env expr)
      (evalExpr other (fuel + 1) env (relabeling.expr expr)) := by
  cases expr with
  | literal span value =>
      rw [Relabeling.expr, evalExpr, evalExpr]
      exact .pure (relabeling.value_ofLiteral value)
  | «variable» target => exact read_carries accords
  | assign span target value =>
      rw [Relabeling.expr, evalExpr, evalExpr]
      apply (parts.expr env value).bind
      intro given
      exact (assign_carries accords).bind fun _ => .pure rfl
  | group span inner => exact parts.expr env inner
  | unary span op operand =>
      rw [Relabeling.expr, evalExpr, evalExpr]
      exact (parts.expr env operand).bind fun _ => applyUnary_carries
  | binary span op left right =>
      rw [Relabeling.expr, evalExpr, evalExpr]
      apply (parts.expr env left).bind
      intro first
      exact (parts.expr env right).bind fun second => applyBinary_carries
  | logical span op left right =>
      rw [Relabeling.expr, evalExpr, evalExpr]
      apply (parts.expr env left).bind
      intro first
      rw [value_isDecidedBy, located]
      split
      next => exact .pure rfl
      next => exact parts.expr env right
  | call span paren callee given =>
      rw [Relabeling.expr, evalExpr, evalExpr]
      apply (parts.expr env callee).bind
      intro function
      rw [value_isCallable]
      split
      next => exact (parts.exprs env given).bind fun values => parts.call function values paren
      next => exact notCallable_carries

/-- A call ends alike with other labels. -/
theorem call_carries (callee : Value) (given : List Value) (span : Span) :
    Carries relabeling relabeling.value (call context (fuel + 1) callee given span)
      (call other (fuel + 1) (relabeling.value callee) (given.map relabeling.value)
        (relabeling.spans span)) := by
  cases callee with
  | nil | bool | number | string => exact notCallable_carries
  | native provided =>
      cases provided
      simp only [Relabeling.value, call, List.length_map, accords.clock]
      exact checkArity_carries.bind fun _ => readClock_carries
  | closure declared =>
      simp only [Relabeling.value, call, List.length_map]
      apply checkArity_carries.bind
      intro _
      apply enter_carries.bind
      intro env
      apply (parts.stmts env declared.body).bind
      intro flow
      cases flow with
      | completed => exact .pure rfl
      | returned value => exact .pure rfl

end

/-- With other labels all work goes the same way. -/
theorem carriesAll {relabeling : Relabeling} {context other : Context}
    (accords : Accords relabeling context other) (fuel : Nat) :
    CarriesAll relabeling context other fuel := by
  induction fuel with
  | zero => constructor <;> intros <;> exact .throw rfl
  | succ fuel parts =>
      exact ⟨expr_carries parts accords, exprs_carries parts, option_carries parts,
        call_carries parts accords, stmt_carries parts, loop_carries parts,
        stmts_carries parts⟩

end Lox.Relabeling
