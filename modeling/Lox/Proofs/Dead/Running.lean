import Lox.Proofs.Dead.Memory
import Lox.Proofs.Run.Phases

namespace Lox

namespace Evaluation

open Lox.Computation

/-- Statements end alike when both complete, which one that gives back a value does not, or when
both give back like values. -/
inductive PrunedFlow (context other : Context) (gives : Bool) : Flow → Flow → Prop
  | completed (goesOn : gives = false) : PrunedFlow context other gives .completed .completed
  | returned {value held : Value} (alike : Pruned context other value held) :
      PrunedFlow context other gives (.returned value) (.returned held)

/-- All work with an amount of fuel goes on alike in the program and in the pruned one. -/
structure PrunesAll (context other : Context) (fuel : Nat) : Prop where
  expr : ∀ env expr, AllKnown (Agreed context other) expr.targets →
    Parallel (pruned context other) () (evalExpr context fuel env expr)
      (evalExpr other fuel env expr) (fun _ => Pruned context other)
  exprs : ∀ env exprs, AllKnown (Agreed context other) (Expr.targetsAll exprs) →
    Parallel (pruned context other) () (evalExprs context fuel env exprs)
      (evalExprs other fuel env exprs) (fun _ => List.Forall₂ (Pruned context other))
  option : ∀ env given, AllKnown (Agreed context other) (Expr.targetsOption given) →
    Parallel (pruned context other) () (evalOption context fuel env given)
      (evalOption other fuel env given) (fun _ => Pruned context other)
  call : ∀ ⦃callee held given same⦄, Pruned context other callee held →
    List.Forall₂ (Pruned context other) given same → ∀ span,
      Parallel (pruned context other) () (call context fuel callee given span)
        (call other fuel held same span) (fun _ => Pruned context other)
  stmt : ∀ env stmt, AllKnown (Agreed context other) stmt.pruned.targets →
    Parallel (pruned context other) () (runStmt context fuel env stmt)
      (runStmt other fuel env stmt.pruned) (fun _ => PrunedFlow context other stmt.givesBack)
  loop : ∀ env condition body, AllKnown (Agreed context other) condition.targets →
    AllKnown (Agreed context other) body.pruned.targets →
      Parallel (pruned context other) () (runLoop context fuel env condition body)
        (runLoop other fuel env condition body.pruned) (fun _ => PrunedFlow context other false)
  stmts : ∀ env stmts, AllKnown (Agreed context other) (Stmt.targetsAll (Stmt.prunedAll stmts)) →
    Parallel (pruned context other) () (runStmts context fuel env stmts)
      (runStmts other fuel env (Stmt.prunedAll stmts)) (fun _ => PrunedFlow context other false)

variable {context other : Context} {fuel : Nat}

/-- Flows that are alike stay so when nothing is known of the statement. -/
theorem PrunedFlow.weaken {gives : Bool} {flow held : Flow}
    (alike : PrunedFlow context other gives flow held) :
    PrunedFlow context other false flow held := by
  cases alike with
  | completed => exact .completed rfl
  | returned alike => exact .returned alike

section
variable (outside : SameOutside context other) (parts : PrunesAll context other fuel)
include parts

/-- Arguments have alike values on both sides. -/
theorem exprs_pruned (env : Env) {exprs : List Expr}
    (agreed : AllKnown (Agreed context other) (Expr.targetsAll exprs)) :
    Parallel (pruned context other) () (evalExprs context (fuel + 1) env exprs)
      (evalExprs other (fuel + 1) env exprs) (fun _ => List.Forall₂ (Pruned context other)) := by
  cases exprs with
  | nil => exact .pure .nil
  | cons expr rest =>
      obtain ⟨first, second⟩ := allKnown_append.1 agreed
      rw [evalExprs, evalExprs]
      refine (parts.expr env expr first).bind fun _ value held _ alike => ?_
      exact (parts.exprs env rest second).map fun _ values others _ passed => .cons alike passed

/-- An expression that may be missing has alike values on both sides. -/
theorem option_pruned (env : Env) {given : Option Expr}
    (agreed : AllKnown (Agreed context other) (Expr.targetsOption given)) :
    Parallel (pruned context other) () (evalOption context (fuel + 1) env given)
      (evalOption other (fuel + 1) env given) (fun _ => Pruned context other) := by
  cases given with
  | none => exact .pure .nil
  | some expr => exact parts.expr env expr agreed

/-- A statement under an `if` or in a loop, or none, may give back a value. -/
theorem nested_pruned (env : Env) {stmt : Stmt}
    (agreed : AllKnown (Agreed context other) stmt.pruned.targets) :
    Parallel (pruned context other) () (runStmt context fuel env stmt)
      (runStmt other fuel env stmt.pruned) (fun _ => PrunedFlow context other false) :=
  (parts.stmt env stmt agreed).imp fun _ _ _ alike => alike.weaken

/-- A statement runs as its pruned form does. -/
theorem stmt_pruned (env : Env) {stmt : Stmt}
    (agreed : AllKnown (Agreed context other) stmt.pruned.targets) :
    Parallel (pruned context other) () (runStmt context (fuel + 1) env stmt)
      (runStmt other (fuel + 1) env stmt.pruned)
      (fun _ => PrunedFlow context other stmt.givesBack) := by
  cases stmt with
  | expression span value =>
      rw [Stmt.pruned, runStmt, runStmt, discard_bind, discard_bind]
      exact (parts.expr env value agreed).map fun _ _ _ _ _ => .completed rfl
  | print span value =>
      rw [Stmt.pruned, runStmt, runStmt]
      refine (parts.expr env value agreed).bind fun _ _ _ _ alike => ?_
      exact (printLine_parallel PrunedClosure.keeps alike span).map fun _ _ _ _ _ => .completed rfl
  | «variable» span name initializer =>
      rw [Stmt.pruned, runStmt, runStmt]
      refine (parts.option env initializer agreed).bind fun _ _ _ _ alike => ?_
      exact (define_pruned env name.item alike).map fun _ _ _ _ _ => .completed rfl
  | function span name parameters body =>
      rw [Stmt.pruned, runStmt, runStmt]
      refine (makeClosure_pruned env name parameters body agreed).bind fun _ _ _ _ alike => ?_
      exact (define_pruned env name.item alike).map fun _ _ _ _ _ => .completed rfl
  | block span body =>
      rw [Stmt.pruned, runStmt, runStmt]
      refine (nest_pruned env).bind fun _ inner _ _ same => ?_
      subst same
      exact parts.stmts inner body agreed
  | branch span condition consequent alternative =>
      rw [Stmt.pruned_branch] at agreed
      obtain ⟨tested, chosen, refused⟩ := allKnown_branch.1 agreed
      rw [Stmt.pruned_branch, runStmt_branch, runStmt_branch]
      refine (parts.expr env condition tested).bind fun _ _ _ _ alike => ?_
      rw [alike.isTrue]
      split
      next => exact nested_pruned parts env chosen
      next =>
        cases alternative with
        | none => exact .pure (.completed rfl)
        | some alternative => exact nested_pruned parts env (refused _ rfl)
  | loop span condition body =>
      obtain ⟨tested, inside⟩ := allKnown_append.1 agreed
      exact parts.loop env condition body tested inside
  | giveBack span keyword value =>
      rw [Stmt.pruned, runStmt, runStmt]
      exact (parts.option env value agreed).map fun _ _ _ _ alike => .returned alike

/-- A loop runs as the one with the pruned body does. -/
theorem loop_pruned (env : Env) {condition : Expr} {body : Stmt}
    (tested : AllKnown (Agreed context other) condition.targets)
    (agreed : AllKnown (Agreed context other) body.pruned.targets) :
    Parallel (pruned context other) () (runLoop context (fuel + 1) env condition body)
      (runLoop other (fuel + 1) env condition body.pruned)
      (fun _ => PrunedFlow context other false) := by
  rw [runLoop, runLoop]
  refine (parts.expr env condition tested).bind fun _ _ _ _ alike => ?_
  rw [alike.isTrue]
  split
  next =>
    refine (parts.stmt env body agreed).bind fun _ _ _ _ ended => ?_
    cases ended with
    | completed => exact parts.loop env condition body tested agreed
    | returned alike => exact .pure (.returned alike)
  next => exact .pure (.completed rfl)

/-- Behind a statement that gives back a value nothing runs, and so nothing is missed. -/
theorem stmts_pruned (env : Env) {stmts : List Stmt}
    (agreed : AllKnown (Agreed context other) (Stmt.targetsAll (Stmt.prunedAll stmts))) :
    Parallel (pruned context other) () (runStmts context (fuel + 1) env stmts)
      (runStmts other (fuel + 1) env (Stmt.prunedAll stmts))
      (fun _ => PrunedFlow context other false) := by
  cases stmts with
  | nil => exact .pure (.completed rfl)
  | cons stmt rest =>
      obtain ⟨first, second⟩ := allKnown_append.1 agreed
      rw [Stmt.prunedAll, runStmts, runStmts]
      refine (parts.stmt env stmt first).bind fun _ _ _ _ ended => ?_
      cases ended with
      | completed goesOn =>
          rw [if_neg (Bool.eq_false_iff.1 goesOn)] at second ⊢
          exact parts.stmts env rest second
      | returned alike => exact .pure (.returned alike)

include outside

/-- An expression has alike values on both sides. -/
theorem expr_pruned (env : Env) {expr : Expr}
    (agreed : AllKnown (Agreed context other) expr.targets) :
    Parallel (pruned context other) () (evalExpr context (fuel + 1) env expr)
      (evalExpr other (fuel + 1) env expr) (fun _ => Pruned context other) := by
  cases expr with
  | literal span value => exact .pure (.ofLiteral value)
  | «variable» target => exact read_pruned outside (agreed _ List.mem_cons_self) env
  | assign span target value =>
      obtain ⟨here, inside⟩ := allKnown_cons.1 agreed
      rw [evalExpr, evalExpr]
      refine (parts.expr env value inside).bind fun _ _ _ _ alike => ?_
      exact (assign_pruned outside here env alike).map fun _ _ _ _ _ => alike
  | group span inner => exact parts.expr env inner agreed
  | unary span op operand =>
      rw [evalExpr, evalExpr]
      refine (parts.expr env operand agreed).bind fun _ _ _ _ alike => ?_
      exact applyUnary_parallel alike op
  | binary span op left right =>
      obtain ⟨first, second⟩ := allKnown_append.1 agreed
      rw [evalExpr, evalExpr]
      refine (parts.expr env left first).bind fun _ _ _ _ alike => ?_
      refine (parts.expr env right second).bind fun _ _ _ _ also => ?_
      exact applyBinary_parallel PrunedClosure.keeps alike also op
  | logical span op left right =>
      obtain ⟨first, second⟩ := allKnown_append.1 agreed
      rw [evalExpr, evalExpr]
      refine (parts.expr env left first).bind fun _ _ _ _ alike => ?_
      rw [alike.isDecidedBy]
      split
      next => exact .pure alike
      next => exact parts.expr env right second
  | call span paren callee given =>
      obtain ⟨first, second⟩ := allKnown_append.1 agreed
      rw [evalExpr, evalExpr]
      refine (parts.expr env callee first).bind fun _ _ _ _ alike => ?_
      rw [alike.isCallable]
      split
      next =>
        refine (parts.exprs env given second).bind fun _ _ _ _ passed => ?_
        exact parts.call alike passed paren
      next => exact notCallable_parallel alike paren

/-- A call of alike callees with alike arguments has alike values on both sides. -/
theorem call_pruned {callee held : Value} {given same : List Value}
    (alike : Pruned context other callee held)
    (passed : List.Forall₂ (Pruned context other) given same) (span : Span) :
    Parallel (pruned context other) () (call context (fuel + 1) callee given span)
      (call other (fuel + 1) held same span) (fun _ => Pruned context other) := by
  have many := passed.length_eq
  have refused : Parallel (pruned context other) () (notCallable callee span)
      (notCallable held span) (fun _ => Pruned context other) := notCallable_parallel alike span
  cases alike with
  | nil | bool | number | string => exact refused
  | native provided =>
      cases provided
      rw [call, call, many, outside.clock]
      exact (checkArity_parallel _ _ _ span).bind fun _ _ _ _ _ => readClock_parallel other.clock
  | @closure closure also alike =>
      rw [call, call, ← many, ← alike.name, ← alike.parameters, alike.body]
      refine (checkArity_parallel _ _ _ span).bind fun _ _ _ _ _ => ?_
      refine (enter_pruned alike passed).bind fun _ env _ _ same => ?_
      subst same
      refine (parts.stmts env closure.body (alike.body ▸ alike.agreed)).bind ?_
      intro _ _ _ _ ended
      cases ended with
      | completed => exact .pure .nil
      | returned alike => exact .pure alike

end

/-- All work goes on alike, with any amount of fuel. -/
theorem prunesAll (outside : SameOutside context other) (fuel : Nat) :
    PrunesAll context other fuel := by
  induction fuel with
  | zero =>
      exact ⟨fun _ _ _ => .throw _, fun _ _ _ => .throw _, fun _ _ _ => .throw _,
        fun _ _ _ _ _ _ _ => .throw _, fun _ _ _ => .throw _, fun _ _ _ _ _ => .throw _,
        fun _ _ _ => .throw _⟩
  | succ fuel parts =>
      constructor
      case expr => exact fun env _ agreed => expr_pruned outside parts env agreed
      case exprs => exact fun env _ agreed => exprs_pruned parts env agreed
      case option => exact fun env _ agreed => option_pruned parts env agreed
      case call => exact fun _ _ _ _ alike passed span => call_pruned outside parts alike passed span
      case stmt => exact fun env _ agreed => stmt_pruned parts env agreed
      case loop => exact fun env _ _ tested agreed => loop_pruned parts env tested agreed
      case stmts => exact fun env _ agreed => stmts_pruned parts env agreed

end Evaluation

open Evaluation

/-- Before a program runs, the stores of both runs hold the native functions. -/
theorem Interpreter.loaded_coupled (context other : Context) (clock : Nat → Float) (output : Sink)
    (program : Program) :
    Coupled (pruned context other) () (loaded clock output program).state
      (loaded clock output (Stmt.prunedAll program)).state := by
  refine ⟨⟨rfl, fun frame name => ?_⟩, rfl, rfl, rfl⟩
  have same : (loaded clock output (Stmt.prunedAll program)).state.store =
      (loaded clock output program).state.store := rfl
  rw [same]
  cases found : (loaded clock output program).state.store.read? frame name with
  | none => exact .none
  | some value =>
      obtain rfl : value = .native .clock := new_read? clock output found
      exact .some (.native .clock)

/-- A pruned program prints the same and ends in the same way. -/
theorem Interpreter.execute_pruned {program : Program}
    (distinct : (Resolution.idsOf (Resolution.visitProgram program)).Nodup) (fuel : Nat)
    (clock : Nat → Float) (output : Sink) :
    let ran := execute fuel clock output program
    let again := execute fuel clock output (Stmt.prunedAll program)
    again.1 = ran.1 ∧ again.2.output = ran.2.output := by
  intro ran again
  have outside : SameOutside (loaded clock output program).context
      (loaded clock output (Stmt.prunedAll program)).context := ⟨rfl, rfl⟩
  have agreed : AllKnown (Agreed (loaded clock output program).context
      (loaded clock output (Stmt.prunedAll program)).context)
      (Stmt.targetsAll (Stmt.prunedAll program)) :=
    fun target among => (Resolution.table_pruned distinct among).symm
  have whole := (prunesAll outside fuel).stmts (loaded clock output program).context.globals program
    agreed (loaded_coupled _ _ clock output program)
  simp only [ran, again, execute]
  split at whole
  next flow after held stored ended finished =>
    obtain ⟨_, _, coupled, _⟩ := whole
    rw [interpret_of_ok ended, interpret_of_ok finished]
    exact ⟨rfl, coupled.output.symm⟩
  next halt after stop stored ended finished =>
    obtain ⟨rfl, same⟩ := whole
    rw [interpret_of_error ended, interpret_of_error finished]
    exact ⟨rfl, same.symm⟩
  next => exact whole.elim

end Lox
