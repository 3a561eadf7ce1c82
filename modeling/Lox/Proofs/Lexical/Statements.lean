import Lox.Proofs.Lexical.Expressions

namespace Lox.Lexical

open Lox.Computation Resolution
open Evaluation (Context)

section
variable {context : Context} {world after : World} {changing : FrameId → Prop} {env : Lox.Env}
  {scopes : List Scope} {lexical inner : Env}

/-- Code that has declared nothing in its own scope may go on as it has stood before. -/
theorem Stands.leave (stands : Stands context world env scopes lexical)
    (grows : world.Grows changing after) (behind : Stands context after env scopes inner) :
    Stands context after env scopes lexical := by
  cases stands with
  | top => exact .top
  | inner other old sees settled _ =>
      cases behind with
      | inner _ _ _ _ listed =>
          exact .inner other (Nat.lt_of_lt_of_le old grows.frames) (sees.grow grows) settled listed

/-- Code stands as before behind what changes only new frames. -/
theorem Stands.around {α β : Type} {compute : Evaluation.Eval α} {other : Eval β}
    {result : World → α → β → Prop} (stands : Stands context world env scopes lexical)
    (simulates : Simulates context (fun _ => False) world compute other result) :
    Simulates context (· = env.frame) world compute other
      (fun grown value same => result grown value same ∧ Stands context grown env scopes lexical) :=
  simulates.weaken (fun _ _ => False.elim) fun _ _ _ grows given => ⟨given, stands.grow grows id⟩

/-- The initializer of a variable sees what was seen before its declaration. -/
theorem Stands.pending {name : String} (stands : Stands context world env scopes lexical)
    (fresh : declared scopes name = false) :
    Sees world env.frames (put scopes name false) lexical.locals := by
  cases stands with
  | top => exact .nothing _ _
  | inner _ _ sees settled _ => exact sees.of_distances (distanceIn?_pending settled fresh)

/-- Behind a statement that declares nothing in its own scope stands what stood before. -/
theorem Alike.leave {flow : Evaluation.Flow} {held : Flow}
    (stands : Stands context world env scopes lexical) (grows : world.Grows changing after)
    (alike : Alike context env scopes after flow held) :
    Alike context env scopes after flow (held.leave lexical) := by
  cases alike with
  | completed behind => exact .completed (stands.leave grows behind)
  | returned alike => exact .returned alike

end

section
variable {context : Context} {fuel : Nat} (parts : Simulation context fuel)
include parts

/-- Calls of related values with related arguments stay together. -/
theorem call_simulates {world : World} {callee : Lox.Value} {held : Value}
    {given : List Lox.Value} {same : List Value} (alike : Related context world callee held)
    (passed : List.Forall₂ (Related context world) given same) (span : Span) :
    Simulates context (fun _ => False) world
      (Evaluation.call context (fuel + 1) callee given span)
      (call context.clock (fuel + 1) held same span) (Related context) := by
  have many := passed.length_eq
  cases alike with
  | nil => exact notCallable_simulates .nil span
  | bool value => exact notCallable_simulates (.bool value) span
  | number value => exact notCallable_simulates (.number value) span
  | string content => exact notCallable_simulates (.string content) span
  | native provided =>
      cases provided
      rw [Evaluation.call, call, many]
      exact (checkArity_simulates _ _ _ span).bind fun _ _ _ _ _ => readClock_simulates
  | closure alike =>
      rw [Evaluation.call, call, ← many, ← alike.name, ← alike.parameters, ← alike.body]
      refine (checkArity_simulates _ _ _ span).bind fun _ _ _ grows arity => ?_
      have passed := passed.imp fun _ _ given => given.grow grows
      refine enter_simulates (alike.grow grows) passed arity ?_
      intro grown inner scopes lexical stands checked
      refine (parts.stmts stands alike.proper checked).bind fun _ flow held _ ended => ?_
      cases ended with
      | completed => exact .pure .nil
      | returned alike => exact .pure alike

section
variable {world : World} {env : Lox.Env} {scopes : List Scope} {lexical : Env}
  (stands : Stands context world env scopes lexical) {inFunction : Bool}
include stands

/-- Both runs of a block open a new environment for its statements and leave it behind. -/
theorem block_simulates {span : Span} {body : List Stmt} (proper : Stmt.ProperAll body)
    (checked : Checked context (visitStmt scopes inFunction (.block span body))) :
    Simulates context (· = env.frame) world
      (Evaluation.runStmt context (fuel + 1) env (.block span body))
      (runStmt context.clock (fuel + 1) lexical (.block span body))
      (Alike context env scopes) := by
  rw [visitStmt] at checked
  rw [Evaluation.runStmt, runStmt]
  have inside : Simulates context (fun _ => False) world
      (Evaluation.nest env >>= fun inner => Evaluation.runStmts context fuel inner body)
      (runStmts context.clock fuel (.inner lexical.locals) body)
      (fun grown flow held => ∃ inner open_, Alike context inner open_ grown flow held) := by
    refine nest_simulates stands.sees stands.settled fun inner _ within => ?_
    exact (parts.stmts within proper checked).weaken (fun _ _ => id)
      fun _ _ _ _ alike => ⟨inner, _, alike⟩
  refine (stands.around inside).mapOther fun grown flow held _ ended => ?_
  obtain ⟨⟨inner, open_, alike⟩, behind⟩ := ended
  cases alike with
  | completed => exact .completed behind
  | returned alike => exact .returned alike

/-- A statement that declares nothing goes on alike and leaves what it has found. -/
theorem silent_simulates {stmt : Stmt} (silent : stmt.declares = false) (proper : stmt.Proper)
    (checked : Checked context (visitStmt scopes inFunction stmt)) :
    Simulates context (· = env.frame) world (Evaluation.runStmt context fuel env stmt)
      (runStmt context.clock fuel lexical stmt >>= fun held => pure (held.leave lexical))
      (Alike context env scopes) := by
  have whole := parts.stmt stands proper checked
  rw [scopesAfter_of_proper scopes stmt proper silent] at whole
  exact whole.mapOther fun grown flow held grows alike => alike.leave stands grows

/-- Both sides of a branch take the same way. -/
theorem branch_simulates {span : Span} {condition : Expr} {consequent : Stmt}
    {alternative : Option Stmt}
    (proper : (Stmt.branch span condition consequent alternative).Proper)
    (checked : Checked context
      (visitStmt scopes inFunction (.branch span condition consequent alternative))) :
    Simulates context (· = env.frame) world
      (Evaluation.runStmt context (fuel + 1) env (.branch span condition consequent alternative))
      (runStmt context.clock (fuel + 1) lexical (.branch span condition consequent alternative))
      (Alike context env scopes) := by
  cases alternative with
  | none =>
      rw [visitStmt, checked_append] at checked
      rw [Evaluation.runStmt, runStmt]
      refine (stands.around (parts.expr stands.sees checked.1)).bind ?_
      rintro grown value same - ⟨alike, behind⟩
      rw [alike.isTrue]
      split
      next => exact silent_simulates parts behind proper.1 proper.2 checked.2
      next => exact .pure (.completed behind)
  | some other =>
      obtain ⟨⟨silent, proper⟩, silentOther, properOther⟩ := proper
      rw [visitStmt, checked_append, checked_append,
        scopesAfter_of_proper scopes consequent proper silent] at checked
      rw [Evaluation.runStmt, runStmt]
      refine (stands.around (parts.expr stands.sees checked.1)).bind ?_
      rintro grown value same - ⟨alike, behind⟩
      rw [alike.isTrue]
      split
      next => exact silent_simulates parts behind silent proper checked.2.1
      next => exact silent_simulates parts behind silentOther properOther checked.2.2

/-- One more unit of fuel keeps the two runs of a statement together. -/
theorem stmt_simulates {stmt : Stmt} (proper : stmt.Proper)
    (checked : Checked context (visitStmt scopes inFunction stmt)) :
    Simulates context (· = env.frame) world (Evaluation.runStmt context (fuel + 1) env stmt)
      (runStmt context.clock (fuel + 1) lexical stmt)
      (Alike context env (scopesAfter scopes stmt)) := by
  cases stmt with
  | expression span value =>
      rw [visitStmt] at checked
      rw [Evaluation.runStmt, runStmt, discard_bind, discard_bind]
      exact (stands.around (parts.expr stands.sees checked)).map
        fun grown value same _ behind => .completed behind.2
  | print span value =>
      rw [visitStmt] at checked
      rw [Evaluation.runStmt, runStmt]
      refine (stands.around (parts.expr stands.sees checked)).bind ?_
      rintro grown value same - ⟨alike, behind⟩
      exact (behind.around (printLine_simulates alike span)).map
        fun grown value same _ behind => .completed behind.2
  | «variable» span name initializer =>
      rw [visitStmt] at checked
      rw [Evaluation.runStmt, runStmt]
      refine (stands.around (parts.option (stands.pending checked.fresh) checked.tail)).bind ?_
      rintro grown value same - ⟨alike, behind⟩
      exact (declare_simulates behind checked.fresh alike).map
        fun grown value same _ behind => .completed behind
  | function span name parameters body =>
      rw [Evaluation.runStmt, runStmt]
      rw [← bind_assoc]
      exact (declareFunction_simulates stands checked proper).map
        fun grown value same _ behind => .completed behind
  | block span body => exact block_simulates parts stands proper checked
  | branch span condition consequent alternative =>
      rw [scopesAfter_of_proper scopes _ proper rfl]
      exact branch_simulates parts stands proper checked
  | loop span condition body =>
      rw [scopesAfter_of_proper scopes _ proper rfl]
      rw [visitStmt, checked_append] at checked
      exact parts.loop stands proper.1 proper.2 checked.1 checked.2
  | giveBack span keyword value =>
      rw [visitStmt] at checked
      rw [Evaluation.runStmt, runStmt]
      exact (stands.around (parts.option stands.sees checked.tail)).map
        fun grown value same _ behind => .returned behind.1

/-- A loop goes on or ends on both sides. -/
theorem loop_simulates {condition : Expr} {body : Stmt} (silent : body.declares = false)
    (proper : body.Proper) (tested : Checked context (visitExpr scopes condition))
    (checked : Checked context (visitStmt scopes inFunction body)) :
    Simulates context (· = env.frame) world
      (Evaluation.runLoop context (fuel + 1) env condition body)
      (runLoop context.clock (fuel + 1) lexical condition body) (Alike context env scopes) := by
  rw [Evaluation.runLoop, runLoop]
  refine (stands.around (parts.expr stands.sees tested)).bind ?_
  rintro grown value same - ⟨alike, behind⟩
  rw [alike.isTrue]
  split
  next =>
    have once := parts.stmt behind proper checked
    rw [scopesAfter_of_proper scopes body proper silent] at once
    refine once.bind fun final flow held grows ended => ?_
    cases ended with
    | completed after =>
        exact parts.loop (behind.leave grows after) silent proper tested checked
    | returned alike => exact .pure (.returned alike)
  next => exact .pure (.completed behind)

/-- One more unit of fuel keeps the two runs of several statements together. -/
theorem stmts_simulates {stmts : List Stmt} (proper : Stmt.ProperAll stmts)
    (checked : Checked context (visitStmts scopes inFunction stmts)) :
    Simulates context (· = env.frame) world (Evaluation.runStmts context (fuel + 1) env stmts)
      (runStmts context.clock (fuel + 1) lexical stmts)
      (Alike context env (scopesAfterAll scopes stmts)) := by
  cases stmts with
  | nil => exact .pure (.completed stands)
  | cons stmt rest =>
      rw [visitStmts, checked_append] at checked
      rw [Evaluation.runStmts, runStmts]
      refine (parts.stmt stands proper.1 checked.1).bind fun grown flow held _ ended => ?_
      cases ended with
      | completed behind => exact parts.stmts behind proper.2 checked.2
      | returned alike => exact .pure (.returned alike)

end

end

/-- All work goes on alike, with any amount of fuel. -/
theorem simulation (context : Context) (fuel : Nat) : Simulation context fuel := by
  induction fuel with
  | zero =>
      exact ⟨fun _ _ _ _ _ _ _ => .throw _, fun _ _ _ _ _ _ _ => .throw _,
        fun _ _ _ _ _ _ _ => .throw _, fun _ _ _ _ _ _ _ _ => .throw _,
        fun _ _ _ _ _ _ _ _ _ => .throw _, fun _ _ _ _ _ _ _ _ _ _ _ _ => .throw _,
        fun _ _ _ _ _ _ _ _ _ => .throw _⟩
  | succ fuel parts =>
      constructor
      case expr => exact fun _ _ _ _ _ sees checked => expr_simulates parts sees checked
      case exprs => exact fun _ _ _ _ _ sees checked => exprs_simulates parts sees checked
      case option => exact fun _ _ _ _ _ sees checked => option_simulates parts sees checked
      case call => exact fun _ _ _ _ _ alike passed span => call_simulates parts alike passed span
      case stmt =>
        exact fun _ _ _ _ _ _ stands proper checked => stmt_simulates parts stands proper checked
      case loop =>
        exact fun _ _ _ _ _ _ _ stands silent proper tested checked =>
          loop_simulates parts stands silent proper tested checked
      case stmts =>
        exact fun _ _ _ _ _ _ stands proper checked => stmts_simulates parts stands proper checked

end Lox.Lexical
