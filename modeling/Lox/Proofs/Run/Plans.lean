import Lox.Proofs.Run.Halting

namespace Lox.Evaluation

open Lox.Computation

/-- The kind of the result of some work. -/
@[reducible] def Task.Result : Task → Type
  | .expr .. | .option .. | .call .. => Value
  | .exprs .. => List Value
  | .stmt .. | .loop .. | .stmts .. => Flow
  | .access .. => FrameId

/-- A plan takes steps of its own and hands work to parts. What follows hangs on their results. -/
inductive Plan (α : Type) : Type 1 where
  | own (compute : Eval α)
  | step {β : Type} (compute : Eval β) (next : β → Plan α)
  | part (task : Task) (next : task.Result → Plan α)

/-- The result of the last part is that of the plan. -/
def Plan.last (task : Task) : Plan task.Result := .part task fun result => .own (pure result)

/-- The body of a call is left with the value that it gives back. -/
def Flow.given : Flow → Value
  | .returned value => value
  | .completed => .nil

section
variable (context : Context)

/-- The work with an amount of fuel. -/
def Task.perform (fuel : Nat) : (task : Task) → Eval task.Result
  | .expr env given => evalExpr context fuel env given
  | .exprs env given => evalExprs context fuel env given
  | .option env given => evalOption context fuel env given
  | .call callee given span => Evaluation.call context fuel callee given span
  | .stmt env given => runStmt context fuel env given
  | .loop env condition body => runLoop context fuel env condition body
  | .stmts env given => runStmts context fuel env given
  | .access env target => locate context env target

/-- The value of a name in the frame of an access. -/
def readFrom (target : Occurrence) (frame : FrameId) : Eval Value := do
  match (← get).store.readIn frame target.name with
  | .ok value => return value
  | .error fault => throw (halt target fault)

/-- The value of a name in the frame of an access is replaced. -/
def writeTo (target : Occurrence) (value : Value) (frame : FrameId) : Eval Unit :=
  modify fun state => { state with store := state.store.write frame target.name value }

def exprPlan (env : Env) : Expr → Plan Value
  | .literal _ value => .own (return .ofLiteral value)
  | .variable target => .part (.access env target) fun frame => .own (readFrom target frame)
  | .assign _ target value =>
      .part (.expr env value) fun value =>
      .part (.access env target) fun frame =>
      .own do
        writeTo target value frame
        return value
  | .group _ inner => .last (.expr env inner)
  | .unary _ op operand => .part (.expr env operand) fun operand => .own (applyUnary op operand)
  | .binary _ op left right =>
      .part (.expr env left) fun left =>
      .part (.expr env right) fun right =>
      .own (applyBinary op left right)
  | .logical _ op left right =>
      .part (.expr env left) fun left =>
      if op.item.isDecidedBy left then .own (return left) else .last (.expr env right)
  | .call _ paren callee given =>
      .part (.expr env callee) fun callee =>
      if callee.isCallable then
        .part (.exprs env given) fun given => .last (.call callee given paren)
      else
        .own (notCallable callee paren)

def exprsPlan (env : Env) : List Expr → Plan (List Value)
  | [] => .own (return [])
  | expr :: rest =>
      .part (.expr env expr) fun value =>
      .part (.exprs env rest) fun values =>
      .own (return value :: values)

def optionPlan (env : Env) : Option Expr → Plan Value
  | none => .own (return .nil)
  | some expr => .last (.expr env expr)

def callPlan (callee : Value) (given : List Value) (span : Span) : Plan Value :=
  match callee with
  | .native .clock =>
      .step (checkArity Native.clock.name Native.clock.arity given.length span) fun _ =>
      .own (readClock context.clock)
  | .closure closure =>
      .step (checkArity closure.name closure.parameters.length given.length span) fun _ =>
      .step (enter closure given) fun env =>
      .part (.stmts env closure.body) fun flow =>
      .own (return flow.given)
  | callee => .own (notCallable callee span)

def stmtPlan (env : Env) : Stmt → Plan Flow
  | .expression _ value => .part (.expr env value) fun _ => .own (return .completed)
  | .print span value =>
      .part (.expr env value) fun value =>
      .own do
        printLine value span
        return .completed
  | .variable _ name initializer =>
      .part (.option env initializer) fun value =>
      .own do
        define env name.item value
        return .completed
  | .function _ name parameters body =>
      .own do
        define env name.item (← makeClosure env name parameters body)
        return .completed
  | .block _ body => .step (nest env) fun inner => .last (.stmts inner body)
  | .branch _ condition consequent alternative =>
      .part (.expr env condition) fun value =>
      if value.isTrue then
        .last (.stmt env consequent)
      else
        match alternative with
        | some alternative => .last (.stmt env alternative)
        | none => .own (return .completed)
  | .loop _ condition body => .last (.loop env condition body)
  | .giveBack _ _ value => .part (.option env value) fun value => .own (return .returned value)

def loopPlan (env : Env) (condition : Expr) (body : Stmt) : Plan Flow :=
  .part (.expr env condition) fun value =>
  if value.isTrue then
    .part (.stmt env body) fun flow =>
    match flow with
    | .returned value => .own (return .returned value)
    | .completed => .last (.loop env condition body)
  else
    .own (return .completed)

def stmtsPlan (env : Env) : List Stmt → Plan Flow
  | [] => .own (return .completed)
  | stmt :: rest =>
      .part (.stmt env stmt) fun flow =>
      match flow with
      | .returned value => .own (return .returned value)
      | .completed => .last (.stmts env rest)

/-- The plan of some work. -/
def Task.plan : (task : Task) → Plan task.Result
  | .expr env given => exprPlan env given
  | .exprs env given => exprsPlan env given
  | .option env given => optionPlan env given
  | .call callee given span => callPlan context callee given span
  | .stmt env given => stmtPlan env given
  | .loop env condition body => loopPlan env condition body
  | .stmts env given => stmtsPlan env given
  | .access env target => .own (locate context env target)

/-- A plan is carried out with an amount of fuel for its parts. -/
def Plan.run (fuel : Nat) {α : Type} : Plan α → Eval α
  | .own compute => compute
  | .step compute next => compute >>= fun value => (next value).run fuel
  | .part task next => task.perform context fuel >>= fun result => (next result).run fuel

/-- A plan that is carried out from a state includes a part. -/
inductive Plan.Includes (fuel : Nat) {α : Type} : Plan α → State → Moment → Prop
  | step {β : Type} {compute : Eval β} {next : β → Plan α} {state after : State} {value : β}
      {part : Moment} (first : Gives compute state value after)
      (further : Includes fuel (next value) after part) :
      Includes fuel (.step compute next) state part
  | here {task : Task} {next : task.Result → Plan α} {state : State} :
      Includes fuel (.part task next) state ⟨fuel, task, state⟩
  | behind {task : Task} {next : task.Result → Plan α} {state after : State}
      {result : task.Result} {part : Moment}
      (first : Gives (task.perform context fuel) state result after)
      (further : Includes fuel (next result) after part) :
      Includes fuel (.part task next) state part

end

section
variable {context : Context} {fuel : Nat} {state : State}

/-- A plan of one task performs the task. -/
theorem last_run (task : Task) : (Plan.last task).run context fuel = task.perform context fuel :=
  bind_pure _

/-- An expression is evaluated by its plan. -/
theorem expr_perform (env : Env) (expr : Expr) :
    evalExpr context (fuel + 1) env expr = (exprPlan env expr).run context fuel := by
  cases expr with
  | literal | «variable» | unary | binary =>
      rw [evalExpr]
      rfl
  | assign span target value =>
      rw [evalExpr]
      refine bind_congr fun value => ?_
      rw [assign, bind_assoc]
      rfl
  | group span inner =>
      rw [evalExpr]
      exact (last_run (.expr env inner)).symm
  | logical span op left right =>
      rw [evalExpr]
      refine bind_congr fun value => ?_
      dsimp only
      split
      next => rfl
      next => exact (last_run (.expr env right)).symm
  | call span paren callee given =>
      rw [evalExpr]
      refine bind_congr fun callee => ?_
      dsimp only
      split
      next => exact bind_congr fun given => (last_run (.call callee given paren)).symm
      next => rfl

/-- A call is performed by its plan. -/
theorem call_perform (callee : Value) (given : List Value) (span : Span) :
    call context (fuel + 1) callee given span =
      (callPlan context callee given span).run context fuel := by
  cases callee with
  | nil | bool | number | string => rfl
  | native provided =>
      cases provided
      rw [call]
      rfl
  | closure closure =>
      rw [call]
      refine bind_congr fun _ => bind_congr fun env => bind_congr fun flow => ?_
      cases flow <;> rfl

/-- A statement is run by its plan. -/
theorem stmt_perform (env : Env) (stmt : Stmt) :
    runStmt context (fuel + 1) env stmt = (stmtPlan env stmt).run context fuel := by
  cases stmt with
  | expression span value =>
      rw [runStmt, discard_bind]
      rfl
  | print | «variable» | function | giveBack =>
      rw [runStmt]
      rfl
  | block span body =>
      rw [runStmt]
      exact bind_congr fun inner => (last_run (.stmts inner body)).symm
  | branch span condition consequent alternative =>
      rw [runStmt_branch]
      refine bind_congr fun value => ?_
      dsimp only
      split
      next => exact (last_run (.stmt env consequent)).symm
      next =>
        split
        next other => exact (last_run (.stmt env other)).symm
        next => rfl
  | loop span condition body =>
      rw [runStmt]
      exact (last_run (.loop env condition body)).symm

/-- A loop is run by its plan. -/
theorem loop_perform (env : Env) (condition : Expr) (body : Stmt) :
    runLoop context (fuel + 1) env condition body =
      (loopPlan env condition body).run context fuel := by
  rw [runLoop]
  refine bind_congr fun value => ?_
  dsimp only
  split
  next =>
    refine bind_congr fun flow => ?_
    cases flow with
    | completed => exact (last_run (.loop env condition body)).symm
    | returned => rfl
  next => rfl

/-- Statements are run by their plan. -/
theorem stmts_perform (env : Env) (stmts : List Stmt) :
    runStmts context (fuel + 1) env stmts = (stmtsPlan env stmts).run context fuel := by
  cases stmts with
  | nil => rfl
  | cons stmt rest =>
      rw [runStmts]
      refine bind_congr fun flow => ?_
      cases flow with
      | completed => exact (last_run (.stmts env rest)).symm
      | returned => rfl

/-- Work with more fuel carries out its plan. -/
theorem perform_succ (task : Task) :
    task.perform context (fuel + 1) = (task.plan context).run context fuel := by
  cases task with
  | expr env given => exact expr_perform env given
  | exprs env given => cases given <;> rfl
  | option env given =>
      cases given with
      | none => rfl
      | some expr => exact (last_run (.expr env expr)).symm
  | call callee given span => exact call_perform callee given span
  | stmt env given => exact stmt_perform env given
  | loop env condition body => exact loop_perform env condition body
  | stmts env given => exact stmts_perform env given
  | access => rfl

/-- A check that passes has as many arguments as parameters. -/
theorem checkArity_eq_ok {name : String} {expected given : Nat} {span : Span} {value : Unit}
    {after : State} (checked : Gives (checkArity name expected given span) state value after) :
    expected = given ∧ after = state := by
  by_cases same : expected = given
  · cases (checkArity_of_eq same).symm.trans checked
    exact ⟨same, rfl⟩
  · cases (checkArity_of_ne same).symm.trans checked

/-- What the work leads to is in its plan. -/
theorem Part.includes {moment part : Moment} (leads : Part context moment part) :
    ∃ fuel, moment.fuel = fuel + 1 ∧
      (moment.task.plan context).Includes context fuel moment.state part := by
  refine ⟨part.fuel, ?_, ?_⟩
  · cases leads <;> rfl
  cases leads with
  | «variable» | assignValue | group | unary | binaryLeft | logicalLeft | callee | first | some
  | expression | print | initializer | condition | loop | giveBack | test | head => exact .here
  | assign first | binaryRight first | rest first => exact .behind first .here
  | logicalRight first open_ =>
      refine .behind first ?_
      rw [open_]
      exact .here
  | arguments first callable =>
      refine .behind first ?_
      rw [if_pos callable]
      exact .here
  | call first callable passed =>
      refine .behind first ?_
      rw [if_pos callable]
      exact .behind passed .here
  | body fits entered => exact .step (checkArity_of_eq fits) (.step entered .here)
  | block opened => exact .step opened .here
  | consequent first holds | turn first holds =>
      refine .behind first ?_
      rw [if_pos holds]
      exact .here
  | alternative first fails =>
      refine .behind first ?_
      rw [fails]
      exact .here
  | again first holds turned =>
      refine .behind first ?_
      rw [if_pos holds]
      exact .behind turned .here
  | tail first => exact .behind first .here

/-- A plan with one part leads to it alone. -/
theorem part_of_single {α : Type} {task : Task} {next : task.Result → Eval α} {part : Moment}
    (included :
      (Plan.part task fun result => .own (next result)).Includes context fuel state part) :
    part = ⟨fuel, task, state⟩ := by
  cases included with
  | here => rfl
  | behind _ further => cases further

/-- What the plan of an expression includes is a part of it. -/
theorem expr_part {env : Env} {expr : Expr} {part : Moment}
    (included : (exprPlan env expr).Includes context fuel state part) :
    Part context ⟨fuel + 1, .expr env expr, state⟩ part := by
  cases expr with
  | literal => cases included
  | «variable» target =>
      cases part_of_single included
      exact .variable
  | assign span target value =>
      cases included with
      | here => exact .assignValue
      | behind first further =>
          cases part_of_single further
          exact .assign first
  | group span inner =>
      cases part_of_single included
      exact .group
  | unary span op operand =>
      cases part_of_single included
      exact .unary
  | binary span op left right =>
      cases included with
      | here => exact .binaryLeft
      | behind first further =>
          cases part_of_single further
          exact .binaryRight first
  | logical span op left right =>
      cases included with
      | here => exact .logicalLeft
      | behind first further =>
          dsimp only at further
          split at further
          next => cases further
          next open_ =>
            cases part_of_single further
            exact .logicalRight first (Bool.not_eq_true _ ▸ open_)
  | call span paren callee given =>
      cases included with
      | here => exact .callee
      | behind first further =>
          dsimp only at further
          split at further
          next callable =>
            cases further with
            | here => exact .arguments first callable
            | behind passed further =>
                cases part_of_single further
                exact .call first callable passed
          next => cases further

/-- What the plan of a call includes is a part of it. -/
theorem call_part {callee : Value} {given : List Value} {span : Span} {part : Moment}
    (included : (callPlan context callee given span).Includes context fuel state part) :
    Part context ⟨fuel + 1, .call callee given span, state⟩ part := by
  cases callee with
  | nil | bool | number | string => cases included
  | native provided =>
      cases provided
      cases included with
      | step _ further => cases further
  | closure closure =>
      cases included with
      | step checked further =>
          obtain ⟨fits, rfl⟩ := checkArity_eq_ok checked
          cases further with
          | step entered further =>
              cases part_of_single further
              exact .body fits entered

/-- What the plan of a statement includes is a part of it. -/
theorem stmt_part {env : Env} {stmt : Stmt} {part : Moment}
    (included : (stmtPlan env stmt).Includes context fuel state part) :
    Part context ⟨fuel + 1, .stmt env stmt, state⟩ part := by
  cases stmt with
  | expression span value =>
      cases part_of_single included
      exact .expression
  | print span value =>
      cases part_of_single included
      exact .print
  | «variable» span name initializer =>
      cases part_of_single included
      exact .initializer
  | function => cases included
  | block span body =>
      cases included with
      | step opened further =>
          cases part_of_single further
          exact .block opened
  | branch span condition consequent alternative =>
      cases included with
      | here => exact .condition
      | behind first further =>
          dsimp only at further
          split at further
          next holds =>
            cases part_of_single further
            exact .consequent first holds
          next fails =>
            split at further
            next =>
              cases part_of_single further
              exact .alternative first (Bool.not_eq_true _ ▸ fails)
            next => cases further
  | loop span condition body =>
      cases part_of_single included
      exact .loop
  | giveBack span keyword value =>
      cases part_of_single included
      exact .giveBack

/-- What the plan of a loop includes is a part of it. -/
theorem loop_part {env : Env} {condition : Expr} {body : Stmt} {part : Moment}
    (included : (loopPlan env condition body).Includes context fuel state part) :
    Part context ⟨fuel + 1, .loop env condition body, state⟩ part := by
  cases included with
  | here => exact .test
  | behind first further =>
      dsimp only at further
      split at further
      next holds =>
        cases further with
        | here => exact .turn first holds
        | @behind _ _ _ _ flow _ turned further =>
            cases flow with
            | completed =>
                cases part_of_single further
                exact .again first holds turned
            | returned => cases further
      next => cases further

/-- What the plan of several statements includes is a part of them. -/
theorem stmts_part {env : Env} {stmts : List Stmt} {part : Moment}
    (included : (stmtsPlan env stmts).Includes context fuel state part) :
    Part context ⟨fuel + 1, .stmts env stmts, state⟩ part := by
  cases stmts with
  | nil => cases included
  | cons stmt rest =>
      cases included with
      | here => exact .head
      | @behind _ _ _ _ flow _ first further =>
          cases flow with
          | completed =>
              cases part_of_single further
              exact .tail first
          | returned => cases further

/-- What is in the plan of some work, the work leads to. -/
theorem part_of_includes {task : Task} {part : Moment}
    (included : (task.plan context).Includes context fuel state part) :
    Part context ⟨fuel + 1, task, state⟩ part := by
  cases task with
  | expr => exact expr_part included
  | exprs env given =>
      cases given with
      | nil => cases included
      | cons expr rest =>
          cases included with
          | here => exact .first
          | behind first further =>
              cases part_of_single further
              exact .rest first
  | option env given =>
      cases given with
      | none => cases included
      | some expr =>
          cases part_of_single included
          exact .some
  | call => exact call_part included
  | stmt => exact stmt_part included
  | loop => exact loop_part included
  | stmts => exact stmts_part included
  | access => cases included

end

end Lox.Evaluation
