import Lox.Proofs.Run.Agreement

namespace Lox

namespace Evaluation

open Lox.Computation

/-- One computation settles another one when it uses up its fuel, or both go the same way. -/
def Settles {α : Type} (compute more : Eval α) : Prop :=
  ∀ state, (∃ after, compute state = .error .outOfFuel after) ∨ compute state = more state

namespace Settles

variable {α β : Type} {compute more : Eval α} {next follow : α → Eval β}

theorem refl (compute : Eval α) : Settles compute compute := fun _ => .inr rfl

theorem outOfFuel : Settles (throw .outOfFuel) more := fun state => .inl ⟨state, rfl⟩

theorem trans {most : Eval α} (first : Settles compute more) (second : Settles more most) :
    Settles compute most := by
  intro state
  rcases first state with out | same
  · exact .inl out
  · rw [same]
    exact second state

theorem bind (first : Settles compute more) (rest : ∀ value, Settles (next value) (follow value)) :
    Settles (compute >>= next) (more >>= follow) := by
  intro state
  rcases first state with ⟨after, out⟩ | same
  · exact .inl ⟨after, bind_of_error out next⟩
  · cases ended : compute state with
    | error halt after =>
        rw [bind_of_error ended, bind_of_error (same ▸ ended)]
        exact .inr rfl
    | ok value after =>
        rw [bind_of_ok ended, bind_of_ok (same ▸ ended)]
        exact rest value after

/-- What comes behind a settled computation is the same. -/
theorem before (first : Settles compute more) (next : α → Eval β) :
    Settles (compute >>= next) (more >>= next) :=
  first.bind fun _ => .refl _

/-- What follows a settled computation needs to be settled alone. -/
theorem behind (compute : Eval α) (rest : ∀ value, Settles (next value) (follow value)) :
    Settles (compute >>= next) (compute >>= follow) :=
  bind (.refl _) rest

end Settles

section
variable (context : Context)

/-- All work with an amount of fuel settles the same work with one more. -/
structure Suffices (fuel : Nat) : Prop where
  expr : ∀ env expr, Settles (evalExpr context fuel env expr) (evalExpr context (fuel + 1) env expr)
  exprs : ∀ env exprs,
    Settles (evalExprs context fuel env exprs) (evalExprs context (fuel + 1) env exprs)
  option : ∀ env given,
    Settles (evalOption context fuel env given) (evalOption context (fuel + 1) env given)
  call : ∀ callee given span,
    Settles (call context fuel callee given span) (call context (fuel + 1) callee given span)
  stmt : ∀ env stmt, Settles (runStmt context fuel env stmt) (runStmt context (fuel + 1) env stmt)
  loop : ∀ env condition body,
    Settles (runLoop context fuel env condition body) (runLoop context (fuel + 1) env condition body)
  stmts : ∀ env stmts,
    Settles (runStmts context fuel env stmts) (runStmts context (fuel + 1) env stmts)

end

section
variable {context : Context} {fuel : Nat} (parts : Suffices context fuel)
include parts

/-- An expression that ends ends alike with one more unit of fuel. -/
theorem expr_settles (env : Env) (expr : Expr) :
    Settles (evalExpr context (fuel + 1) env expr) (evalExpr context (fuel + 2) env expr) := by
  cases expr with
  | literal span value => exact .refl _
  | «variable» target => exact .refl _
  | assign span target value =>
      rw [evalExpr, evalExpr]
      exact (parts.expr env value).before _
  | group span inner => exact parts.expr env inner
  | unary span op operand =>
      rw [evalExpr, evalExpr]
      exact (parts.expr env operand).before _
  | binary span op left right =>
      rw [evalExpr, evalExpr]
      exact (parts.expr env left).bind fun _ => (parts.expr env right).before _
  | logical span op left right =>
      rw [evalExpr, evalExpr]
      refine (parts.expr env left).bind fun value => ?_
      split
      next => exact .refl _
      next => exact parts.expr env right
  | call span paren callee given =>
      rw [evalExpr, evalExpr]
      refine (parts.expr env callee).bind fun value => ?_
      split
      next => exact (parts.exprs env given).bind fun values => parts.call value values paren
      next => exact .refl _

/-- Expressions that end end alike with one more unit of fuel. -/
theorem exprs_settles (env : Env) (exprs : List Expr) :
    Settles (evalExprs context (fuel + 1) env exprs) (evalExprs context (fuel + 2) env exprs) := by
  cases exprs with
  | nil => exact .refl _
  | cons expr rest =>
      rw [evalExprs, evalExprs]
      exact (parts.expr env expr).bind fun _ => (parts.exprs env rest).before _

theorem option_settles (env : Env) (given : Option Expr) :
    Settles (evalOption context (fuel + 1) env given) (evalOption context (fuel + 2) env given) := by
  cases given with
  | none => exact .refl _
  | some expr => exact parts.expr env expr

/-- A call that ends ends alike with one more unit of fuel. -/
theorem call_settles (callee : Value) (given : List Value) (span : Span) :
    Settles (call context (fuel + 1) callee given span)
      (call context (fuel + 2) callee given span) := by
  cases callee with
  | nil | bool | number | string => exact .refl _
  | native provided =>
      cases provided
      exact .refl _
  | closure declared =>
      rw [call, call]
      exact .behind _ fun _ => .behind _ fun env => (parts.stmts env declared.body).before _

/-- A statement that ends ends alike with one more unit of fuel. -/
theorem stmt_settles (env : Env) (stmt : Stmt) :
    Settles (runStmt context (fuel + 1) env stmt) (runStmt context (fuel + 2) env stmt) := by
  cases stmt with
  | expression span value =>
      rw [runStmt, runStmt, discard_bind, discard_bind]
      exact (parts.expr env value).before _
  | print span value =>
      rw [runStmt, runStmt]
      exact (parts.expr env value).before _
  | «variable» span name initializer =>
      rw [runStmt, runStmt]
      exact (parts.option env initializer).before _
  | function span name parameters body => exact .refl _
  | block span body =>
      rw [runStmt, runStmt]
      exact .behind _ fun inner => parts.stmts inner body
  | branch span condition consequent alternative =>
      cases alternative with
      | none =>
          rw [runStmt, runStmt]
          refine (parts.expr env condition).bind fun value => ?_
          split
          next => exact parts.stmt env consequent
          next => exact .refl _
      | some other =>
          rw [runStmt, runStmt]
          refine (parts.expr env condition).bind fun value => ?_
          split
          next => exact parts.stmt env consequent
          next => exact parts.stmt env other
  | loop span condition body => exact parts.loop env condition body
  | giveBack span keyword value =>
      rw [runStmt, runStmt]
      exact (parts.option env value).before _

/-- A loop that ends ends alike with one more unit of fuel. -/
theorem loop_settles (env : Env) (condition : Expr) (body : Stmt) :
    Settles (runLoop context (fuel + 1) env condition body)
      (runLoop context (fuel + 2) env condition body) := by
  rw [runLoop, runLoop]
  refine (parts.expr env condition).bind fun value => ?_
  split
  next =>
    refine (parts.stmt env body).bind fun flow => ?_
    cases flow with
    | completed => exact parts.loop env condition body
    | returned value => exact .refl _
  next => exact .refl _

/-- Statements that end end alike with one more unit of fuel. -/
theorem stmts_settles (env : Env) (stmts : List Stmt) :
    Settles (runStmts context (fuel + 1) env stmts) (runStmts context (fuel + 2) env stmts) := by
  cases stmts with
  | nil => exact .refl _
  | cons stmt rest =>
      rw [runStmts, runStmts]
      refine (parts.stmt env stmt).bind fun flow => ?_
      cases flow with
      | completed => exact parts.stmts env rest
      | returned value => exact .refl _

end

/-- Whatever ends with some fuel ends alike with more. -/
theorem fuel_suffices (context : Context) (fuel : Nat) : Suffices context fuel := by
  induction fuel with
  | zero =>
      exact ⟨fun _ _ => .outOfFuel, fun _ _ => .outOfFuel, fun _ _ => .outOfFuel,
        fun _ _ _ => .outOfFuel, fun _ _ => .outOfFuel, fun _ _ _ => .outOfFuel,
        fun _ _ => .outOfFuel⟩
  | succ fuel parts =>
      exact ⟨expr_settles parts, exprs_settles parts, option_settles parts, call_settles parts,
        stmt_settles parts, loop_settles parts, stmts_settles parts⟩

/-- Statements go the same way with any more fuel. -/
theorem stmts_settle (context : Context) {fuel more : Nat} (enough : fuel ≤ more) (env : Env)
    (stmts : List Stmt) :
    Settles (runStmts context fuel env stmts) (runStmts context more env stmts) := by
  induction enough with
  | refl => exact .refl _
  | step _ ih => exact ih.trans ((fuel_suffices context _).stmts env stmts)

end Evaluation

/-- A program that has ended ends in the same way with any more fuel. -/
theorem Interpreter.interpret_of_more {interpreter : Interpreter} {program : Program}
    {fuel more : Nat} (enough : fuel ≤ more)
    (ended : (interpreter.interpret fuel program).1 ≠ .halted .outOfFuel) :
    interpreter.interpret more program = interpreter.interpret fuel program := by
  rcases Evaluation.stmts_settle interpreter.context enough interpreter.context.globals program
    interpreter.state with ⟨after, out⟩ | same
  · exact absurd (congrArg Prod.fst (interpret_of_error out)) ended
  · simp only [interpret, perform, EStateM.run, same]

/-- A run that has ended ends in the same way with any more fuel. -/
theorem run_of_more {text : String} {fuel more : Nat} {clock : Nat → Float} {output : Sink}
    (enough : fuel ≤ more) (ended : (run fuel clock output text).ending ≠ .halted .outOfFuel) :
    run more clock output text = run fuel clock output text := by
  by_cases clean : (parse text).errors = []
  · rw [run_of_clean clean] at ended ⊢
    rw [run_of_clean clean, Interpreter.interpret_of_more enough ended]
  · rw [run_of_wrong clean, run_of_wrong clean]

end Lox
