import Lox.Proofs.Syntax.Paths
import Lox.Tree.Parser

namespace Lox.Parser

open Lox.Computation

/-- The occurrences of an operator's expression are those of its operands. -/
theorem apply_targets (operator : Operator) (place : Span) (left right : Expr) :
    (operator.apply place left right).targets = left.targets ++ right.targets := by
  cases operator <;> rfl

section
variable (eof : Nat)

/-- The productions of expressions walk with an amount of fuel. -/
structure ExpressionsWalk (fuel : Nat) : Prop where
  expression (state : State) : Walks eof state Expr.targets (expression eof fuel) state
  operand (level : Level) (state : State) :
    Walks eof state Expr.targets (operand eof fuel level) state
  chain (level : Level) (state : State) : Walks eof state Expr.targets (chain eof fuel level) state
  chainAfter (level : Level) {left : Expr} {origin state : State}
    (sofar : Reaches eof origin left.targets state) :
    Walks eof origin Expr.targets (chainAfter eof fuel level left) state
  unary (state : State) : Walks eof state Expr.targets (unary eof fuel) state
  call (state : State) : Walks eof state Expr.targets (call eof fuel) state
  callAfter {callee : Expr} {origin state : State} (sofar : Reaches eof origin callee.targets state) :
    Walks eof origin Expr.targets (callAfter eof fuel callee) state
  arguments (length : Nat) (state : State) :
    Walks eof state Expr.targetsAll (arguments eof fuel length) state
  primary (state : State) : Walks eof state Expr.targets (primary eof fuel) state

variable {eof} {fuel : Nat} (parts : ExpressionsWalk eof fuel) (state : State)
include parts

/-- One more unit of fuel lets an expression walk to its occurrences. -/
theorem expression_walks : Walks eof state Expr.targets (expression eof (fuel + 1)) state := by
  rw [expression]
  refine .bind (.refl state) (parts.chain .or state) fun target middle reached => ?_
  refine .step isNext_apply ?_
  split
  next =>
    refine .silent reached take_walks fun place middle reached => ?_
    refine .bind reached (parts.expression middle) fun value last reached => ?_
    -- The read of the variable becomes its assignment, and the value of an invalid one is left out.
    split
    next target => exact .pure reached
    next target =>
      refine .silent reached (report_walks rfl) fun _ last reached => ?_
      exact .pure (reached.subset (List.subset_append_left _ _))
  next => exact .pure reached

theorem operand_walks (level : Level) :
    Walks eof state Expr.targets (operand eof (fuel + 1) level) state := by
  rw [operand]
  split
  next tighter _ => exact parts.chain tighter state
  next => exact parts.unary state

theorem chain_walks (level : Level) :
    Walks eof state Expr.targets (chain eof (fuel + 1) level) state := by
  rw [chain]
  exact .bind (.refl state) (parts.operand level state) fun left middle reached =>
    parts.chainAfter level reached

omit state in
/-- A chain walks on from the occurrences of its left operand. -/
theorem chainAfter_walks (level : Level) {left : Expr} {origin state : State}
    (sofar : Reaches eof origin left.targets state) :
    Walks eof origin Expr.targets (chainAfter eof (fuel + 1) level left) state := by
  rw [chainAfter]
  refine .step peek?_apply ?_
  split
  next operator _ =>
    refine .silent sofar take_walks fun place middle reached => ?_
    refine .bind reached (parts.operand level middle) fun right last reached => ?_
    exact parts.chainAfter level (apply_targets operator place left right ▸ reached)
  next => exact .pure sofar

theorem unary_walks : Walks eof state Expr.targets (unary eof (fuel + 1)) state := by
  rw [unary]
  refine .step peek?_apply ?_
  split
  next =>
    refine .silent (.refl state) take_walks fun place middle reached => ?_
    exact .bind reached (parts.unary middle) fun inner last reached => .pure reached
  next => exact parts.call state

theorem call_walks : Walks eof state Expr.targets (call eof (fuel + 1)) state := by
  rw [call]
  exact .bind (.refl state) (parts.primary state) fun callee middle reached =>
    parts.callAfter reached

omit state in
/-- The calls walk on from the occurrences of their callee. -/
theorem callAfter_walks {callee : Expr} {origin state : State}
    (sofar : Reaches eof origin callee.targets state) :
    Walks eof origin Expr.targets (callAfter eof (fuel + 1) callee) state := by
  rw [callAfter]
  refine .silent sofar accept_walks fun taken middle reached => ?_
  split
  next =>
    refine .step isNext_apply ?_
    have closing (given : List Expr) (middle : State)
        (reached : Reaches eof origin (callee.targets ++ Expr.targetsAll given) middle) :
        Walks eof origin Expr.targets (do
          let paren ← expect eof .rightParen
          callAfter eof fuel (.call (callee.span.to paren) paren callee given)) middle :=
      .silent reached expect_walks fun paren last reached => parts.callAfter reached
    split
    next => exact .step (pure_apply [] middle) (closing [] middle (reached.append (.refl middle)))
    next => exact .bind reached (parts.arguments 0 middle) closing
  next => exact .pure reached

theorem arguments_walks (length : Nat) :
    Walks eof state Expr.targetsAll (arguments eof (fuel + 1) length) state := by
  rw [arguments]
  refine .silent (.refl state) checkLength_walks fun _ middle reached => ?_
  refine .bind reached (parts.expression middle) fun first middle reached => ?_
  refine .silent reached accept_walks fun taken middle reached => ?_
  split
  next =>
    exact .bind reached (parts.arguments (length + 1) middle) fun others last reached =>
      .pure reached
  next => exact .pure (reached.append (.refl middle))

/-- A variable is walked to at its identifier. -/
theorem primary_walks : Walks eof state Expr.targets (primary eof (fuel + 1)) state := by
  rw [primary]
  refine .step (get_apply _) ?_
  split
  next => exact .refuse (.refl state)
  next token text span rest next =>
    split
    next name =>
      unfold Walks
      rw [variable_cons next]
      exact .read next
    next =>
      refine .silent (.refl state) take_walks fun opening middle reached => ?_
      refine .bind reached (parts.expression middle) fun inner middle reached => ?_
      exact .silent reached expect_walks fun closing last reached => .pure reached
    next =>
      split
      next => exact .silent (.refl state) take_walks fun place last reached => .pure reached
      next => exact .refuse (.refl state)

end

/-- Every expression walks to its occurrences, whatever its fuel is. -/
theorem expressionsWalk (eof fuel : Nat) : ExpressionsWalk eof fuel := by
  induction fuel with
  | zero =>
      exact ⟨fun _ => .outOfFuel, fun _ _ => .outOfFuel, fun _ _ => .outOfFuel,
        fun _ _ _ _ _ => .outOfFuel, fun _ => .outOfFuel, fun _ => .outOfFuel,
        fun _ => .outOfFuel, fun _ _ => .outOfFuel, fun _ => .outOfFuel⟩
  | succ fuel parts =>
      exact ⟨expression_walks parts, fun level state => operand_walks parts state level,
        fun level state => chain_walks parts state level,
        fun level _ _ _ sofar => chainAfter_walks parts level sofar, unary_walks parts,
        call_walks parts, fun sofar => callAfter_walks parts sofar,
        fun length state => arguments_walks parts state length, primary_walks parts⟩

section
variable (eof fuel : Nat) (state : State)

/-- Parameters have no occurrences. -/
theorem parameters_walks (length : Nat) :
    Walks eof state nowhere (parameters eof fuel length) state := by
  induction fuel generalizing state length with
  | zero => exact .outOfFuel
  | succ fuel ih =>
      rw [parameters]
      refine .silent (.refl state) checkLength_walks fun _ middle reached => ?_
      refine .silent reached expectName_walks fun first middle reached => ?_
      refine .silent reached accept_walks fun taken middle reached => ?_
      split
      next =>
        exact .silent reached (ih middle (length + 1)) fun others last reached => .pure reached
      next => exact .pure reached

/-- A condition walks to the occurrences of its expression. -/
theorem condition_walks : Walks eof state Expr.targets (condition eof fuel) state := by
  simp only [condition, discard_bind]
  refine .silent (.refl state) expect_walks fun _ middle reached => ?_
  refine .bind reached ((expressionsWalk eof fuel).expression middle) fun test last reached => ?_
  exact .silent reached expect_walks fun _ last reached => .pure reached

theorem option_walks : Walks eof state Expr.targetsOption (some <$> expression eof fuel) state :=
  .map some (fun _ => rfl) ((expressionsWalk eof fuel).expression state)

theorem variableDeclaration_walks (start : Nat) :
    Walks eof state Stmt.targets (variableDeclaration eof fuel start) state := by
  simp only [variableDeclaration, discard_bind]
  refine .silent (.refl state) expectName_walks fun name middle reached => ?_
  refine .silent reached accept_walks fun taken middle reached => ?_
  have closing (initializer : Option Expr) (middle : State)
      (reached : Reaches eof state (Expr.targetsOption initializer) middle) :
      Walks eof state Stmt.targets (do
        let _ ← expect eof .semicolon
        let span ← spanFrom start
        return Stmt.variable span name initializer) middle :=
    .silent reached expect_walks fun _ last reached => .step spanFrom_apply (.pure reached)
  split
  next => exact .bind reached (option_walks eof fuel middle) closing
  next => exact .step (pure_apply none middle) (closing none middle reached)

theorem expressionStatement_walks :
    Walks eof state Stmt.targets (expressionStatement eof fuel) state := by
  simp only [expressionStatement, discard_bind]
  refine .step here_apply ?_
  refine .bind (.refl state) ((expressionsWalk eof fuel).expression state) fun value middle reached => ?_
  exact .silent reached expect_walks fun _ last reached => .step spanFrom_apply (.pure reached)

theorem loopStart_walks : Walks eof state stmtTargets (loopStart eof fuel) state := by
  rw [loopStart]
  refine .silent (.refl state) accept_walks fun taken middle reached => ?_
  split
  next => exact .pure reached
  next =>
    refine .step isNext_apply ?_
    split
    next =>
      refine .silent reached take_walks fun place middle reached => ?_
      have declared := variableDeclaration_walks eof fuel middle place.start
      exact .final reached (declared.map some stmtTargets_some)
    next =>
      have evaluated := expressionStatement_walks eof fuel middle
      exact .final reached (evaluated.map some stmtTargets_some)

theorem expressionUnless_walks (closing : Symbol) :
    Walks eof state Expr.targetsOption (expressionUnless eof fuel closing) state := by
  rw [expressionUnless]
  refine .step isNext_apply ?_
  split
  next => exact .pure (.refl state)
  next => exact option_walks eof fuel state

end

/-- In the tree of a counting loop the step comes behind the body. -/
theorem forLoop_targets (span : Span) (initial : Option Stmt) (test step : Option Expr)
    (body : Stmt) :
    (Stmt.forLoop span initial test step body).targets =
      stmtTargets initial ++
        (Expr.targetsOption test ++ (body.targets ++ Expr.targetsOption step)) := by
  cases initial <;> cases test <;> cases step <;>
    simp [Stmt.forLoop, Stmt.targets, Stmt.targetsAll, Expr.targets, Expr.targetsOption, stmtTargets]

section
variable (eof : Nat)

/-- The productions of statements walk with an amount of fuel. -/
structure StatementsWalk (fuel : Nat) : Prop where
  declaration (state : State) : Walks eof state stmtTargets (declaration eof fuel) state
  functionDeclaration (start : Nat) (state : State) :
    Walks eof state Stmt.targets (functionDeclaration eof fuel start) state
  statement (state : State) : Walks eof state Stmt.targets (statement eof fuel) state
  forStatement (start : Nat) (state : State) :
    Walks eof state Stmt.targets (forStatement eof fuel start) state
  blockBody (state : State) : Walks eof state Stmt.targetsAll (blockBody eof fuel) state

variable {eof} {fuel : Nat} (parts : StatementsWalk eof fuel) (state : State)
include parts

/-- What a declaration attempts. -/
theorem attempted_walks :
    Walks eof state Stmt.targets
      (do
        let start := (← here eof).start
        if ← accept .fun then
          functionDeclaration eof fuel start
        else if ← accept .var then
          variableDeclaration eof fuel start
        else
          statement eof fuel) state := by
  refine .step here_apply ?_
  refine .silent (.refl state) accept_walks fun taken middle reached => ?_
  split
  next => exact .final reached (parts.functionDeclaration _ middle)
  next =>
    refine .silent reached accept_walks fun taken middle reached => ?_
    split
    next => exact .final reached (variableDeclaration_walks eof fuel middle _)
    next => exact .final reached (parts.statement middle)

/-- A declaration walks to its occurrences, also where it recovers. -/
theorem declaration_walks : Walks eof state stmtTargets (declaration eof (fuel + 1)) state := by
  rw [declaration]
  exact attempt_walks (attempted_walks parts state)

theorem functionDeclaration_walks (start : Nat) :
    Walks eof state Stmt.targets (functionDeclaration eof (fuel + 1) start) state := by
  simp only [functionDeclaration, discard_bind]
  refine .silent (.refl state) expectName_walks fun name middle reached => ?_
  refine .silent reached expect_walks fun _ middle reached => ?_
  refine .step isNext_apply ?_
  have closing (given : List Name) (middle : State) (reached : Reaches eof state [] middle) :
      Walks eof state Stmt.targets (do
        let _ ← expect eof .rightParen
        let _ ← expect eof .leftBrace
        let body ← blockBody eof fuel
        let span ← spanFrom start
        return Stmt.function span name given body) middle := by
    refine .silent reached expect_walks fun _ middle reached => ?_
    refine .silent reached expect_walks fun _ middle reached => ?_
    refine .bind reached (parts.blockBody middle) fun body last reached => ?_
    exact .step spanFrom_apply (.pure reached)
  split
  next => exact .step (pure_apply [] middle) (closing [] middle reached)
  next => exact .silent reached (parameters_walks eof fuel middle 0) closing

/-- A `for` loop walks to the occurrences of all its parts. -/
theorem forStatement_walks (start : Nat) :
    Walks eof state Stmt.targets (forStatement eof (fuel + 1) start) state := by
  simp only [forStatement, discard_bind]
  refine .silent (.refl state) expect_walks fun _ middle reached => ?_
  refine .bind reached (loopStart_walks eof fuel middle) fun initial middle reached => ?_
  refine .bind reached (expressionUnless_walks eof fuel middle _) fun test middle reached => ?_
  refine .silent reached expect_walks fun _ middle reached => ?_
  refine .bind reached (expressionUnless_walks eof fuel middle _) fun step middle reached => ?_
  refine .silent reached expect_walks fun _ middle reached => ?_
  refine .bind reached (parts.statement middle) fun body last reached => ?_
  refine .step spanFrom_apply (.pure (reached.subset ?_))
  simp only [forLoop_targets, List.nil_append, List.append_assoc]
  exact (List.Perm.append_left _ (.append_left _ List.perm_append_comm)).subset

/-- One more unit of fuel lets a statement walk to its occurrences. -/
theorem statement_walks : Walks eof state Stmt.targets (statement eof (fuel + 1)) state := by
  simp only [statement, discard_bind]
  refine .step here_apply (.step peek?_apply ?_)
  split
  next =>
    exact .silent (.refl state) take_walks fun _ middle reached =>
      .final reached (parts.forStatement _ middle)
  next =>
    refine .silent (.refl state) take_walks fun _ middle reached => ?_
    refine .bind reached (condition_walks eof fuel middle) fun test middle reached => ?_
    refine .bind reached (parts.statement middle) fun consequent middle reached => ?_
    refine .silent reached accept_walks fun taken middle reached => ?_
    split
    next =>
      simp only [map_eq_pure_bind, bind_assoc, pure_bind]
      refine .bind reached (parts.statement middle) fun alternative last reached => ?_
      refine .step spanFrom_apply (.pure ?_)
      rwa [Stmt.targets, ← List.append_assoc]
    next => exact .step (pure_apply none middle) (.step spanFrom_apply (.pure reached))
  next =>
    refine .silent (.refl state) take_walks fun _ middle reached => ?_
    refine .bind reached ((expressionsWalk eof fuel).expression middle) fun value middle reached => ?_
    exact .silent reached expect_walks fun _ last reached => .step spanFrom_apply (.pure reached)
  next =>
    refine .silent (.refl state) take_walks fun _ middle reached => ?_
    refine .bind reached (expressionUnless_walks eof fuel middle _) fun value middle reached => ?_
    exact .silent reached expect_walks fun _ last reached => .step spanFrom_apply (.pure reached)
  next =>
    refine .silent (.refl state) take_walks fun _ middle reached => ?_
    refine .bind reached (condition_walks eof fuel middle) fun test middle reached => ?_
    refine .bind reached (parts.statement middle) fun body last reached => ?_
    exact .step spanFrom_apply (.pure reached)
  next =>
    refine .silent (.refl state) take_walks fun _ middle reached => ?_
    refine .bind reached (parts.blockBody middle) fun body last reached => ?_
    exact .step spanFrom_apply (.pure reached)
  next => exact expressionStatement_walks eof fuel state

theorem blockBody_walks :
    Walks eof state Stmt.targetsAll (blockBody eof (fuel + 1)) state := by
  simp only [blockBody, discard_bind]
  refine .step isNext_apply (.step atEnd_apply ?_)
  split
  next => exact .silent (.refl state) expect_walks fun _ last reached => .pure reached
  next =>
    refine .bind (.refl state) (parts.declaration state) fun first middle reached => ?_
    refine .bind reached (parts.blockBody middle) fun others last reached => ?_
    exact .pure (stmtTargets_append first others ▸ reached)

end

/-- Every statement walks to its occurrences, whatever its fuel is. -/
theorem statementsWalk (eof fuel : Nat) : StatementsWalk eof fuel := by
  induction fuel with
  | zero =>
      exact ⟨fun _ => .outOfFuel, fun _ _ => .outOfFuel, fun _ => .outOfFuel,
        fun _ _ => .outOfFuel, fun _ => .outOfFuel⟩
  | succ fuel parts =>
      exact ⟨declaration_walks parts,
        fun start state => functionDeclaration_walks parts state start, statement_walks parts,
        fun start state => forStatement_walks parts state start, blockBody_walks parts⟩

/-- A program walks to the occurrences of its declarations. -/
theorem program_walks (eof : Nat) :
    ∀ fuel (state : State), Walks eof state Stmt.targetsAll (program eof fuel) state
  | 0, _ => .outOfFuel
  | fuel + 1, state => by
      rw [program]
      refine .step atEnd_apply ?_
      split
      next => exact .pure (.refl state)
      next =>
        have first := (statementsWalk eof fuel).declaration state
        refine .bind (.refl state) first fun first middle reached => ?_
        refine .bind reached (program_walks eof fuel middle) fun others last reached => ?_
        exact .pure (stmtTargets_append first others ▸ reached)

end Lox.Parser
