import Lox.Proofs.Output.Cut

namespace Lox.Evaluation

open Lox.Computation

section
variable {context : Context} {limit : Nat}

/-- A value is printed completely, or the statement that prints it breaks off. -/
theorem printLine_cuts {fuel : Nat} {env : Env} {span : Span} {value : Expr} {given : Value}
    {state after : State} (first : Gives (evalExpr context fuel env value) state given after)
    (unlimited : after.output.limit = none) :
    Cuts context limit ⟨fuel + 1, .stmt env (.print span value), state⟩ (printLine given span)
      after := by
  have after_write := write_of_unlimited unlimited (given.text ++ "\n")
  have written : printLine given span after =
      .ok () (after.withOutput (after.output.write (given.text ++ "\n")).2) :=
    printLine_of_room (congrArg Prod.fst after_write)
  have size : (lastState (printLine given span after)).written =
      after.written + (given.text ++ "\n").utf8ByteSize := by
    rw [written, after_write]
    exact ByteArray.size_append
  have grows : Extends after (lastState (printLine given span after)) := by
    rw [written, after_write]
    exact ⟨unlimited, _, rfl⟩
  have cut (fits : after.written ≤ limit) := write_cutOutput unlimited fits (given.text ++ "\n")
  refine ⟨grows, fun fits => ?_, fun fits full => ?_⟩
  · have before := Nat.le_trans grows.written_le fits
    have room : ((after.cut limit).output.write (given.text ++ "\n")).1 = true :=
      (congrArg Prod.fst (cut before)).trans (decide_eq_true (size ▸ fits))
    rw [written, printLine_of_room room]
    exact congrArg (fun output => EStateM.Result.ok () (after.withOutput output))
      (congrArg Prod.snd (cut before))
  · have beyond : ((after.cut limit).output.write (given.text ++ "\n")).1 = false :=
      (congrArg Prod.fst (cut fits)).trans (decide_eq_false (Nat.not_le_of_lt (size ▸ full)))
    refine ⟨span, _, ?_, printLine_of_full beyond, ?_⟩
    · exact ⟨fuel, env, value, state, given, after, .refl, first, fits, size ▸ full⟩
    · rw [written]
      exact congrArg (fun written => written.2.contents) (cut fits)

end

section
variable (context : Context) (limit : Nat)

/-- All work with an amount of fuel comes to the same on a cut output, up to the point where it
breaks off. -/
structure BreaksOff (fuel : Nat) : Prop where
  expr : ∀ env expr state, state.output.limit = none →
    Cuts context limit ⟨fuel, .expr env expr, state⟩ (evalExpr context fuel env expr) state
  exprs : ∀ env exprs state, state.output.limit = none →
    Cuts context limit ⟨fuel, .exprs env exprs, state⟩ (evalExprs context fuel env exprs) state
  option : ∀ env given state, state.output.limit = none →
    Cuts context limit ⟨fuel, .option env given, state⟩ (evalOption context fuel env given) state
  call : ∀ callee given span state, state.output.limit = none →
    Cuts context limit ⟨fuel, .call callee given span, state⟩ (call context fuel callee given span)
      state
  stmt : ∀ env stmt state, state.output.limit = none →
    Cuts context limit ⟨fuel, .stmt env stmt, state⟩ (runStmt context fuel env stmt) state
  loop : ∀ env condition body state, state.output.limit = none →
    Cuts context limit ⟨fuel, .loop env condition body, state⟩
      (runLoop context fuel env condition body) state
  stmts : ∀ env stmts state, state.output.limit = none →
    Cuts context limit ⟨fuel, .stmts env stmts, state⟩ (runStmts context fuel env stmts) state

end

section
variable {context : Context} {limit fuel : Nat} (parts : BreaksOff context limit fuel)
  {state : State} (unlimited : state.output.limit = none)
include parts unlimited

/-- One more unit of fuel lets an expression be cut off. -/
theorem expr_cuts (env : Env) (expr : Expr) :
    Cuts context limit ⟨fuel + 1, .expr env expr, state⟩ (evalExpr context (fuel + 1) env expr)
      state := by
  cases expr with
  | literal span value => exact .of_quiet (.pure _) unlimited
  | «variable» target => exact .of_quiet read_quiet unlimited
  | assign span target value =>
      rw [evalExpr]
      exact ((parts.expr env value state unlimited).of_part .assignValue).bind_quiet fun _ =>
        assign_quiet.bind fun _ => .pure _
  | group span inner => exact (parts.expr env inner state unlimited).of_part .group
  | unary span op operand =>
      rw [evalExpr]
      exact ((parts.expr env operand state unlimited).of_part .unary).bind_quiet fun _ =>
        applyUnary_quiet
  | binary span op left right =>
      rw [evalExpr]
      apply ((parts.expr env left state unlimited).of_part .binaryLeft).bind
      intro value after first unlimited
      exact ((parts.expr env right after unlimited).of_part (.binaryRight first)).bind_quiet fun _ =>
        applyBinary_quiet
  | logical span op left right =>
      rw [evalExpr]
      apply ((parts.expr env left state unlimited).of_part .logicalLeft).bind
      intro value after first unlimited
      split
      next => exact .of_quiet (.pure _) unlimited
      next open_ =>
        exact (parts.expr env right after unlimited).of_part
          (.logicalRight first (Bool.not_eq_true _ ▸ open_))
  | call span paren callee given =>
      rw [evalExpr]
      apply ((parts.expr env callee state unlimited).of_part .callee).bind
      intro function after first unlimited
      split
      next callable =>
        apply ((parts.exprs env given after unlimited).of_part (.arguments first callable)).bind
        intro values last passed unlimited
        exact (parts.call function values paren last unlimited).of_part
          (.call first callable passed)
      next => exact .of_quiet notCallable_quiet unlimited

/-- One more unit of fuel lets several expressions be cut off. -/
theorem exprs_cuts (env : Env) (exprs : List Expr) :
    Cuts context limit ⟨fuel + 1, .exprs env exprs, state⟩ (evalExprs context (fuel + 1) env exprs)
      state := by
  cases exprs with
  | nil => exact .of_quiet (.pure _) unlimited
  | cons expr rest =>
      rw [evalExprs]
      apply ((parts.expr env expr state unlimited).of_part .first).bind
      intro value after first unlimited
      exact ((parts.exprs env rest after unlimited).of_part (.rest first)).bind_quiet fun _ => .pure _

theorem option_cuts (env : Env) (given : Option Expr) :
    Cuts context limit ⟨fuel + 1, .option env given, state⟩
      (evalOption context (fuel + 1) env given) state := by
  cases given with
  | none => exact .of_quiet (.pure _) unlimited
  | some expr => exact (parts.expr env expr state unlimited).of_part .some

/-- One more unit of fuel lets a call be cut off. -/
theorem call_cuts (callee : Value) (given : List Value) (span : Span) :
    Cuts context limit ⟨fuel + 1, .call callee given span, state⟩
      (call context (fuel + 1) callee given span) state := by
  cases callee with
  | nil | bool | number | string => exact .of_quiet notCallable_quiet unlimited
  | native provided =>
      cases provided
      exact .of_quiet (checkArity_quiet.bind fun _ => readClock_quiet) unlimited
  | closure closure =>
      rw [call]
      by_cases fits : closure.parameters.length = given.length
      · apply (Cuts.of_quiet checkArity_quiet unlimited).bind
        intro _ middle checked _
        cases (checkArity_of_eq fits).symm.trans checked
        apply (Cuts.of_quiet enter_quiet unlimited).bind
        intro inner after entered unlimited
        apply ((parts.stmts inner closure.body after unlimited).of_part (.body fits entered)).bind_quiet
        intro flow
        cases flow <;> exact .pure _
      · apply (Cuts.of_quiet checkArity_quiet unlimited).bind
        intro _ _ checked
        cases (checkArity_of_ne fits).symm.trans checked

/-- One more unit of fuel lets a statement be cut off, a `print` at its own write. -/
theorem stmt_cuts (env : Env) (stmt : Stmt) :
    Cuts context limit ⟨fuel + 1, .stmt env stmt, state⟩ (runStmt context (fuel + 1) env stmt)
      state := by
  cases stmt with
  | expression span value =>
      rw [runStmt, discard_bind]
      exact ((parts.expr env value state unlimited).of_part .expression).bind_quiet fun _ => .pure _
  | print span value =>
      rw [runStmt]
      apply ((parts.expr env value state unlimited).of_part .print).bind
      intro given after first unlimited
      exact (printLine_cuts first unlimited).bind_quiet fun _ => .pure _
  | «variable» span name initializer =>
      rw [runStmt]
      exact ((parts.option env initializer state unlimited).of_part .initializer).bind_quiet fun _ =>
        define_quiet.bind fun _ => .pure _
  | function span name parameters body =>
      rw [runStmt]
      exact .of_quiet (makeClosure_quiet.bind fun _ => define_quiet.bind fun _ => .pure _) unlimited
  | block span body =>
      rw [runStmt]
      apply (Cuts.of_quiet nest_quiet unlimited).bind
      intro inner after opened unlimited
      exact (parts.stmts inner body after unlimited).of_part (.block opened)
  | branch span condition consequent alternative =>
      rw [runStmt_branch]
      apply ((parts.expr env condition state unlimited).of_part .condition).bind
      intro value after first unlimited
      split
      next holds =>
        exact (parts.stmt env consequent after unlimited).of_part (.consequent first holds)
      next fails =>
        split
        next other =>
          exact (parts.stmt env other after unlimited).of_part
            (.alternative first (Bool.not_eq_true _ ▸ fails))
        next => exact .of_quiet (.pure _) unlimited
  | loop span condition body => exact (parts.loop env condition body state unlimited).of_part .loop
  | giveBack span keyword value =>
      rw [runStmt]
      exact ((parts.option env value state unlimited).of_part .giveBack).bind_quiet fun _ => .pure _

/-- One more unit of fuel lets a loop be cut off. -/
theorem loop_cuts (env : Env) (condition : Expr) (body : Stmt) :
    Cuts context limit ⟨fuel + 1, .loop env condition body, state⟩
      (runLoop context (fuel + 1) env condition body) state := by
  rw [runLoop]
  apply ((parts.expr env condition state unlimited).of_part .test).bind
  intro value after first unlimited
  split
  next holds =>
    apply ((parts.stmt env body after unlimited).of_part (.turn first holds)).bind
    intro flow last turned unlimited
    cases flow with
    | completed =>
        exact (parts.loop env condition body last unlimited).of_part (.again first holds turned)
    | returned value => exact .of_quiet (.pure _) unlimited
  next => exact .of_quiet (.pure _) unlimited

/-- One more unit of fuel lets several statements be cut off. -/
theorem stmts_cuts (env : Env) (stmts : List Stmt) :
    Cuts context limit ⟨fuel + 1, .stmts env stmts, state⟩ (runStmts context (fuel + 1) env stmts)
      state := by
  cases stmts with
  | nil => exact .of_quiet (.pure _) unlimited
  | cons stmt rest =>
      rw [runStmts]
      apply ((parts.stmt env stmt state unlimited).of_part .head).bind
      intro flow after ran unlimited
      cases flow with
      | completed => exact (parts.stmts env rest after unlimited).of_part (.tail ran)
      | returned value => exact .of_quiet (.pure _) unlimited

end

/-- Whatever runs without a limit breaks off at every limit. -/
theorem breaks_off (context : Context) (limit fuel : Nat) : BreaksOff context limit fuel := by
  induction fuel with
  | zero => constructor <;> intros <;> exact .of_quiet (.throw .outOfFuel) ‹_›
  | succ fuel parts =>
      exact ⟨fun env expr _ unlimited => expr_cuts parts unlimited env expr,
        fun env exprs _ unlimited => exprs_cuts parts unlimited env exprs,
        fun env given _ unlimited => option_cuts parts unlimited env given,
        fun callee given span _ unlimited => call_cuts parts unlimited callee given span,
        fun env stmt _ unlimited => stmt_cuts parts unlimited env stmt,
        fun env condition body _ unlimited => loop_cuts parts unlimited env condition body,
        fun env stmts _ unlimited => stmts_cuts parts unlimited env stmts⟩

end Lox.Evaluation
