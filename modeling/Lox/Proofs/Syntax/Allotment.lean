import Lox.Proofs.Scope.Numbering
import Lox.Proofs.Syntax.Counting
import Lox.Proofs.Syntax.Progress

namespace Lox

/-- Numbers that are given up do not come again. -/
theorem Resolution.Numbered.left {first next : Nat} {ids others : List Nat}
    (numbered : Resolution.Numbered first next (ids ++ others)) : Resolution.Numbered first next ids :=
  ⟨numbered.forwards, fun id given => numbered.within id (List.mem_append_left _ given),
    (List.nodup_append.1 numbered.distinct).1⟩

namespace Parser

open Lox.Computation Lox.Grammar Lox.Resolution

/-- What a production gives has different numbers, from a first one up to the next one. -/
def Allots {α : Type} (first : Nat) (ids : α → List Nat) (production : Production α)
    (state : State) : Prop :=
  ∀ value last, production state = .ok value last → Numbered first last.nextId (ids value)

/-- A step gives no number away. -/
def Quiet {α : Type} (production : Production α) (state : State) : Prop :=
  ∀ value last, production state = .ok value last → last.nextId = state.nextId

section
variable {α β : Type} {first : Nat} {state middle : State} {ids : α → List Nat}
  {others : β → List Nat} {sofar : List Nat} {production : Production α}
  {next : α → Production β}

namespace Allots

theorem stop {reason : Stop} : Allots first ids (throw reason : Production α) state := nofun

theorem pure {value : α} (numbered : Numbered first state.nextId (ids value)) :
    Allots first ids (pure value : Production α) state := by
  intro given last ended
  cases ended
  exact numbered

/-- A step whose result is known leads on from there. -/
theorem step {value : α} (start : production state = .ok value middle)
    (rest : Allots first others (next value) middle) :
    Allots first others (production >>= next) state := by
  intro given last ended
  rw [bind_of_ok start] at ended
  exact rest given last ended

/-- The numbers of a step follow on those before it. -/
theorem bind (numbered : Numbered first state.nextId sofar)
    (start : Allots state.nextId ids production state)
    (rest : ∀ value middle, Numbered first middle.nextId (sofar ++ ids value) →
      Allots first others (next value) middle) :
    Allots first others (production >>= next) state := by
  intro given last ended
  obtain ⟨value, middle, begun, ended⟩ := bind_eq_ok.1 ended
  exact rest value middle (numbered.append (start value middle begun)) given last ended

/-- A quiet step leaves the numbers as they are. -/
theorem silent (numbered : Numbered first state.nextId sofar) (quiet : Quiet production state)
    (rest : ∀ value middle, Numbered first middle.nextId sofar →
      Allots first others (next value) middle) :
    Allots first others (production >>= next) state := by
  intro given last ended
  obtain ⟨value, middle, begun, ended⟩ := bind_eq_ok.1 ended
  exact rest value middle (quiet value middle begun ▸ numbered) given last ended

/-- The last step of a production follows on the numbers before it. -/
theorem final (numbered : Numbered first state.nextId [])
    (start : Allots state.nextId ids production state) : Allots first ids production state :=
  fun value last ended => numbered.append (start value last ended)

theorem map (f : α → β) (start : Allots first ids production state)
    (same : ∀ value, others (f value) = ids value) :
    Allots first others (f <$> production) state := by
  intro given last ended
  rw [map_eq_pure_bind] at ended
  obtain ⟨value, middle, begun, ended⟩ := bind_eq_ok.1 ended
  cases ended
  exact (same value).symm ▸ start value last begun

end Allots

variable {eof : Nat} {symbol : Symbol}

theorem take_quiet : Quiet (take eof) state := by
  intro value last ended
  cases ended
  unfold State.advance
  split <;> rfl

theorem expect_quiet : Quiet (expect eof symbol) state := by
  intro value last ended
  obtain ⟨lexeme, rest, -, -, -, rfl⟩ := expect_eq_ok.1 ended
  rfl

theorem accept_quiet : Quiet (accept symbol) state := by
  intro value last ended
  rcases accept_eq_ok.1 ended with ⟨-, lexeme, rest, -, -, rfl⟩ | ⟨-, -, rfl⟩ <;> rfl

theorem expectName_quiet {expected : String} : Quiet (expectName eof expected) state := by
  intro value last ended
  obtain ⟨text, rest, -, rfl⟩ := expectName_eq_ok.1 ended
  rfl

theorem checkLength_quiet {listed : Listed} {length : Nat} :
    Quiet (checkLength eof listed length) state := by
  intro value last ended
  by_cases long : listLimit ≤ length
  · cases (checkLength_of_long long).symm.trans ended
    rfl
  · cases (checkLength_of_short (Nat.not_le.1 long)).symm.trans ended
    rfl

end

section
variable (eof : Nat)

/-- The productions of expressions give away different numbers with an amount of fuel. -/
structure ExpressionsAllot (fuel : Nat) : Prop where
  expression (state : State) : Allots state.nextId Expr.ids (expression eof fuel) state
  operand (level : Level) (state : State) :
    Allots state.nextId Expr.ids (operand eof fuel level) state
  chain (level : Level) (state : State) : Allots state.nextId Expr.ids (chain eof fuel level) state
  chainAfter (level : Level) {left : Expr} {first : Nat} {state : State}
    (sofar : Numbered first state.nextId left.ids) :
    Allots first Expr.ids (chainAfter eof fuel level left) state
  unary (state : State) : Allots state.nextId Expr.ids (unary eof fuel) state
  call (state : State) : Allots state.nextId Expr.ids (call eof fuel) state
  callAfter {callee : Expr} {first : Nat} {state : State}
    (sofar : Numbered first state.nextId callee.ids) :
    Allots first Expr.ids (callAfter eof fuel callee) state
  arguments (length : Nat) (state : State) :
    Allots state.nextId Expr.idsAll (arguments eof fuel length) state
  primary (state : State) : Allots state.nextId Expr.ids (primary eof fuel) state

variable {eof} {fuel : Nat} (parts : ExpressionsAllot eof fuel) (state : State)
include parts

/-- One more unit of fuel allots the numbers of an expression. -/
theorem expression_allots :
    Allots state.nextId Expr.ids (expression eof (fuel + 1)) state := by
  rw [expression]
  refine .bind (.nil _) (parts.chain .or state) fun target middle numbered => ?_
  refine .step isNext_apply ?_
  split
  next =>
    refine .silent numbered take_quiet fun place middle numbered => ?_
    refine .bind numbered (parts.expression middle) fun value last numbered => ?_
    split
    next target => exact .pure numbered
    next target => exact .step report_apply (.pure numbered.left)
  next => exact .pure numbered

theorem operand_allots (level : Level) :
    Allots state.nextId Expr.ids (operand eof (fuel + 1) level) state := by
  rw [operand]
  split
  next tighter _ => exact parts.chain tighter state
  next => exact parts.unary state

theorem chain_allots (level : Level) :
    Allots state.nextId Expr.ids (chain eof (fuel + 1) level) state := by
  rw [chain]
  exact .bind (.nil _) (parts.operand level state) fun left middle numbered =>
    parts.chainAfter level numbered

omit state in
/-- A chain goes on to allot behind its left operand. -/
theorem chainAfter_allots (level : Level) {left : Expr} {first : Nat} {state : State}
    (sofar : Numbered first state.nextId left.ids) :
    Allots first Expr.ids (chainAfter eof (fuel + 1) level left) state := by
  rw [chainAfter]
  refine .step peek?_apply ?_
  split
  next operator _ =>
    refine .silent sofar take_quiet fun place middle numbered => ?_
    refine .bind numbered (parts.operand level middle) fun right last numbered => ?_
    rw [← node_idsOf place left right operator, ← apply_eq_node] at numbered
    exact parts.chainAfter level numbered
  next => exact .pure sofar

theorem unary_allots : Allots state.nextId Expr.ids (unary eof (fuel + 1)) state := by
  rw [unary]
  refine .step peek?_apply ?_
  split
  next =>
    refine .silent (.nil _) take_quiet fun place middle numbered => ?_
    exact .bind numbered (parts.unary middle) fun inner last numbered => .pure numbered
  next => exact parts.call state

theorem call_allots : Allots state.nextId Expr.ids (call eof (fuel + 1)) state := by
  rw [call]
  exact .bind (.nil _) (parts.primary state) fun callee middle numbered => parts.callAfter numbered

omit state in
/-- The calls go on to allot behind their callee. -/
theorem callAfter_allots {callee : Expr} {first : Nat} {state : State}
    (sofar : Numbered first state.nextId callee.ids) :
    Allots first Expr.ids (callAfter eof (fuel + 1) callee) state := by
  rw [callAfter]
  refine .silent sofar accept_quiet fun taken middle numbered => ?_
  split
  next =>
    refine .step isNext_apply ?_
    have closing (given : List Expr) (middle : State)
        (numbered : Numbered first middle.nextId (callee.ids ++ Expr.idsAll given)) :
        Allots first Expr.ids (do
          let paren ← expect eof .rightParen
          callAfter eof fuel (.call (callee.span.to paren) paren callee given)) middle :=
      .silent numbered expect_quiet fun paren last numbered => parts.callAfter numbered
    split
    next => exact .step (pure_apply [] middle) (closing [] middle (numbered.append (.nil _)))
    next => exact .bind numbered (parts.arguments 0 middle) closing
  next => exact .pure numbered

theorem arguments_allots (length : Nat) :
    Allots state.nextId Expr.idsAll (arguments eof (fuel + 1) length) state := by
  rw [arguments]
  refine .silent (.nil _) checkLength_quiet fun _ middle numbered => ?_
  refine .bind numbered (parts.expression middle) fun given middle numbered => ?_
  refine .silent numbered accept_quiet fun taken middle numbered => ?_
  split
  next =>
    exact .bind numbered (parts.arguments (length + 1) middle) fun others last numbered =>
      .pure numbered
  next => exact .pure (numbered.append (.nil _))

/-- A variable is allotted the next number. -/
theorem primary_allots : Allots state.nextId Expr.ids (primary eof (fuel + 1)) state := by
  rw [primary]
  refine .step (get_apply _) ?_
  split
  next => exact .stop
  next token text span rest next =>
    split
    next name =>
      refine .step freshId_apply ?_
      exact .silent (.single _) take_quiet fun place last numbered => .pure numbered
    next =>
      refine .silent (.nil _) take_quiet fun opening middle numbered => ?_
      refine .bind numbered (parts.expression middle) fun inner middle numbered => ?_
      exact .silent numbered expect_quiet fun closing last numbered => .pure numbered
    next =>
      split
      next value _ => exact .silent (.nil _) take_quiet fun place last numbered => .pure numbered
      next => exact .stop

end

/-- Every expression is allotted its own numbers, whatever the fuel is. -/
theorem expressionsAllot (eof fuel : Nat) : ExpressionsAllot eof fuel := by
  induction fuel with
  | zero =>
      exact ⟨fun _ => .stop, fun _ _ => .stop, fun _ _ => .stop, fun _ _ _ _ _ => .stop,
        fun _ => .stop, fun _ => .stop, fun _ => .stop, fun _ _ => .stop, fun _ => .stop⟩
  | succ fuel parts =>
      exact ⟨expression_allots parts, fun level state => operand_allots parts state level,
        fun level state => chain_allots parts state level,
        fun level _ _ _ sofar => chainAfter_allots parts level sofar, unary_allots parts,
        call_allots parts, fun sofar => callAfter_allots parts sofar,
        fun length state => arguments_allots parts state length, primary_allots parts⟩

section
variable (eof fuel : Nat) (state : State)

/-- Parameters are allotted no numbers. -/
theorem parameters_quiet (length : Nat) : Quiet (parameters eof fuel length) state := by
  induction fuel generalizing state length with
  | zero => exact nofun
  | succ fuel ih =>
      intro names last ended
      rw [parameters] at ended
      obtain ⟨_, second, checked, ended⟩ := bind_eq_ok.1 ended
      obtain ⟨name, third, named, ended⟩ := bind_eq_ok.1 ended
      obtain ⟨taken, fourth, accepted, ended⟩ := bind_eq_ok.1 ended
      have same := (accept_quiet _ _ accepted).trans
        ((expectName_quiet _ _ named).trans (checkLength_quiet _ _ checked))
      cases taken with
      | true =>
          obtain ⟨others, fifth, more, ended⟩ := bind_eq_ok.1 ended
          cases ended
          exact (ih fourth (length + 1) others last more).trans same
      | false =>
          cases ended
          exact same

/-- A condition is allotted the numbers of its expression. -/
theorem condition_allots : Allots state.nextId Expr.ids (condition eof fuel) state := by
  simp only [condition, discard_bind]
  refine .silent (.nil _) expect_quiet fun _ middle numbered => ?_
  refine .bind numbered ((expressionsAllot eof fuel).expression middle) fun test last numbered => ?_
  exact .silent numbered expect_quiet fun _ last numbered => .pure numbered

theorem option_allots :
    Allots state.nextId optionIds (some <$> expression eof fuel) state :=
  ((expressionsAllot eof fuel).expression state).map some fun _ => rfl

/-- A variable's declaration is allotted the numbers of its initializer. -/
theorem variableDeclaration_allots (start : Nat) :
    Allots state.nextId Stmt.ids (variableDeclaration eof fuel start) state := by
  simp only [variableDeclaration, discard_bind]
  refine .silent (.nil _) expectName_quiet fun name middle numbered => ?_
  refine .silent numbered accept_quiet fun taken middle numbered => ?_
  have closing (initializer : Option Expr) (middle : State)
      (numbered : Numbered state.nextId middle.nextId (optionIds initializer)) :
      Allots state.nextId Stmt.ids (do
        let _ ← expect eof .semicolon
        let span ← spanFrom start
        return Stmt.variable span name initializer) middle :=
    .silent numbered expect_quiet fun _ last numbered => .step spanFrom_apply (.pure numbered)
  split
  next => exact .bind numbered (option_allots eof fuel middle) closing
  next => exact .step (pure_apply none middle) (closing none middle numbered)

/-- An expression statement is allotted the numbers of its expression. -/
theorem expressionStatement_allots :
    Allots state.nextId Stmt.ids (expressionStatement eof fuel) state := by
  simp only [expressionStatement, discard_bind]
  refine .step here_apply ?_
  refine .bind (.nil _) ((expressionsAllot eof fuel).expression state) fun value middle numbered => ?_
  exact .silent numbered expect_quiet fun _ last numbered => .step spanFrom_apply (.pure numbered)

/-- The numbers in a statement that may be missing. -/
def stmtIds (given : Option Stmt) : List Nat := (given.map Stmt.ids).getD []

/-- The numbers of a statement that may be absent come before those of the others. -/
theorem stmtIds_append (given : Option Stmt) (stmts : List Stmt) :
    Stmt.idsAll (given.toList ++ stmts) = stmtIds given ++ Stmt.idsAll stmts := by
  cases given <;> rfl

theorem loopStart_allots : Allots state.nextId stmtIds (loopStart eof fuel) state := by
  rw [loopStart]
  refine .silent (.nil _) accept_quiet fun taken middle numbered => ?_
  split
  next => exact .pure numbered
  next =>
    refine .step isNext_apply ?_
    split
    next =>
      refine .silent numbered take_quiet fun place middle numbered => ?_
      have declared := variableDeclaration_allots eof fuel middle place.start
      exact .final numbered (declared.map some fun _ => rfl)
    next =>
      have evaluated := expressionStatement_allots eof fuel middle
      exact .final numbered (evaluated.map some fun _ => rfl)

theorem expressionUnless_allots (closing : Symbol) :
    Allots state.nextId optionIds (expressionUnless eof fuel closing) state := by
  rw [expressionUnless]
  refine .step isNext_apply ?_
  split
  next => exact .pure (.nil _)
  next => exact option_allots eof fuel state

end

/-- A statement that is given up uses up its numbers. -/
theorem attempt_allots {lack : Prop} {statement : Production Stmt} {state : State}
    (progress : Progress 1 lack statement state)
    (allots : Allots state.nextId Stmt.ids statement state) :
    Allots state.nextId stmtIds (attempt statement) state := by
  intro found last ended
  unfold attempt at ended
  cases read : statement state with
  | ok stmt reached =>
      rw [read] at ended
      cases ended
      exact allots stmt last read
  | error stop reached =>
      rw [read] at ended
      cases stop with
      | outOfFuel => cases ended
      | error error =>
          cases ended
          exact ⟨(progress.stopped read).2.numbered, nofun, List.nodup_nil⟩

section
variable (eof : Nat)

/-- The productions of statements give away different numbers with an amount of fuel. -/
structure StatementsAllot (fuel : Nat) : Prop where
  declaration (state : State) : Allots state.nextId stmtIds (declaration eof fuel) state
  functionDeclaration (start : Nat) (state : State) :
    Allots state.nextId Stmt.ids (functionDeclaration eof fuel start) state
  statement (state : State) : Allots state.nextId Stmt.ids (statement eof fuel) state
  forStatement (start : Nat) (state : State) :
    Allots state.nextId Stmt.ids (forStatement eof fuel start) state
  blockBody (state : State) : Allots state.nextId Stmt.idsAll (blockBody eof fuel) state

variable {eof} {fuel : Nat} (parts : StatementsAllot eof fuel) (state : State)
include parts

/-- A declaration is allotted its own numbers, also if it is dropped. -/
theorem declaration_allots :
    Allots state.nextId stmtIds (declaration eof (fuel + 1)) state := by
  rw [declaration]
  refine attempt_allots (attempted_progress (statementsProgress eof fuel) state) ?_
  refine .step here_apply ?_
  refine .silent (.nil _) accept_quiet fun taken middle numbered => ?_
  split
  next => exact .final numbered (parts.functionDeclaration _ middle)
  next =>
    refine .silent numbered accept_quiet fun taken middle numbered => ?_
    split
    next => exact .final numbered (variableDeclaration_allots eof fuel middle _)
    next => exact .final numbered (parts.statement middle)

theorem functionDeclaration_allots (start : Nat) :
    Allots state.nextId Stmt.ids (functionDeclaration eof (fuel + 1) start) state := by
  simp only [functionDeclaration, discard_bind]
  refine .silent (.nil _) expectName_quiet fun name middle numbered => ?_
  refine .silent numbered expect_quiet fun _ middle numbered => ?_
  refine .step isNext_apply ?_
  have closing (given : List Name) (middle : State)
      (numbered : Numbered state.nextId middle.nextId []) :
      Allots state.nextId Stmt.ids (do
        let _ ← expect eof .rightParen
        let _ ← expect eof .leftBrace
        let body ← blockBody eof fuel
        let span ← spanFrom start
        return Stmt.function span name given body) middle := by
    refine .silent numbered expect_quiet fun _ middle numbered => ?_
    refine .silent numbered expect_quiet fun _ middle numbered => ?_
    refine .bind numbered (parts.blockBody middle) fun body last numbered => ?_
    exact .step spanFrom_apply (.pure numbered)
  split
  next => exact .step (pure_apply [] middle) (closing [] middle numbered)
  next => exact .silent numbered (parameters_quiet eof fuel middle 0) closing

/-- The parts of a loop are allotted apart, in the order in which they are read. -/
theorem forStatement_allots (start : Nat) :
    Allots state.nextId Stmt.ids (forStatement eof (fuel + 1) start) state := by
  simp only [forStatement, discard_bind]
  refine .silent (.nil _) expect_quiet fun _ middle numbered => ?_
  refine .bind numbered (loopStart_allots eof fuel middle) fun initial middle numbered => ?_
  refine .bind numbered (expressionUnless_allots eof fuel middle _) fun test middle numbered => ?_
  refine .silent numbered expect_quiet fun _ middle numbered => ?_
  refine .bind numbered (expressionUnless_allots eof fuel middle _) fun step middle numbered => ?_
  refine .silent numbered expect_quiet fun _ middle numbered => ?_
  refine .bind numbered (parts.statement middle) fun body last numbered => ?_
  refine .step spanFrom_apply (.pure ?_)
  rw [forLoop_idsOf]
  refine numbered.perm ?_
  rw [List.append_assoc, List.append_assoc]
  exact .append_left _ (.append_left _ List.perm_append_comm)

/-- A statement is allotted its own numbers. -/
theorem statement_allots : Allots state.nextId Stmt.ids (statement eof (fuel + 1)) state := by
  simp only [statement, discard_bind]
  refine .step here_apply (.step peek?_apply ?_)
  split
  next =>
    exact .silent (.nil _) take_quiet fun _ middle numbered =>
      .final numbered (parts.forStatement _ middle)
  next =>
    refine .silent (.nil _) take_quiet fun _ middle numbered => ?_
    refine .bind numbered (condition_allots eof fuel middle) fun test middle numbered => ?_
    refine .bind numbered (parts.statement middle) fun consequent middle numbered => ?_
    refine .silent numbered accept_quiet fun taken middle numbered => ?_
    split
    next =>
      simp only [map_eq_pure_bind, bind_assoc, pure_bind]
      refine .bind numbered (parts.statement middle) fun alternative last numbered => ?_
      refine .step spanFrom_apply (.pure ?_)
      rwa [Stmt.ids, ← List.append_assoc]
    next => exact .step (pure_apply none middle) (.step spanFrom_apply (.pure numbered))
  next =>
    refine .silent (.nil _) take_quiet fun _ middle numbered => ?_
    refine .bind numbered ((expressionsAllot eof fuel).expression middle) fun value middle numbered => ?_
    exact .silent numbered expect_quiet fun _ last numbered => .step spanFrom_apply (.pure numbered)
  next =>
    refine .silent (.nil _) take_quiet fun _ middle numbered => ?_
    refine .bind numbered (expressionUnless_allots eof fuel middle _) fun value middle numbered => ?_
    exact .silent numbered expect_quiet fun _ last numbered => .step spanFrom_apply (.pure numbered)
  next =>
    refine .silent (.nil _) take_quiet fun _ middle numbered => ?_
    refine .bind numbered (condition_allots eof fuel middle) fun test middle numbered => ?_
    refine .bind numbered (parts.statement middle) fun body last numbered => ?_
    exact .step spanFrom_apply (.pure numbered)
  next =>
    refine .silent (.nil _) take_quiet fun _ middle numbered => ?_
    refine .bind numbered (parts.blockBody middle) fun body last numbered => ?_
    exact .step spanFrom_apply (.pure numbered)
  next => exact expressionStatement_allots eof fuel state

/-- The statements of a block are allotted apart. -/
theorem blockBody_allots : Allots state.nextId Stmt.idsAll (blockBody eof (fuel + 1)) state := by
  simp only [blockBody, discard_bind]
  refine .step isNext_apply (.step atEnd_apply ?_)
  split
  next => exact .silent (.nil _) expect_quiet fun _ last numbered => .pure numbered
  next =>
    refine .bind (.nil _) (parts.declaration state) fun first middle numbered => ?_
    refine .bind numbered (parts.blockBody middle) fun others last numbered => ?_
    exact .pure (stmtIds_append first others ▸ numbered)

end

/-- Every statement is allotted its own numbers, whatever the fuel is. -/
theorem statementsAllot (eof fuel : Nat) : StatementsAllot eof fuel := by
  induction fuel with
  | zero =>
      exact ⟨fun _ => .stop, fun _ _ => .stop, fun _ => .stop, fun _ _ => .stop, fun _ => .stop⟩
  | succ fuel parts =>
      exact ⟨declaration_allots parts, fun start state => functionDeclaration_allots parts state start,
        statement_allots parts, fun start state => forStatement_allots parts state start,
        blockBody_allots parts⟩

/-- The declarations of a program are allotted apart. -/
theorem program_allots (eof : Nat) :
    ∀ fuel (state : State), Allots state.nextId Stmt.idsAll (program eof fuel) state
  | 0, _ => .stop
  | fuel + 1, state => by
      rw [program]
      refine .step atEnd_apply ?_
      split
      next => exact .pure (.nil _)
      next =>
        have first := (statementsAllot eof fuel).declaration state
        refine .bind (.nil _) first fun first middle numbered => ?_
        refine .bind numbered (program_allots eof fuel middle) fun others last numbered => ?_
        exact .pure (stmtIds_append first others ▸ numbered)

/-- The occurrences that are read from lexemes have different numbers. -/
theorem parseLexemes_distinct (eof : Nat) (lexemes : List Lexeme) (errors : List (Located Error)) :
    (Stmt.idsAll (parseLexemes eof lexemes errors).program).Nodup := by
  obtain ⟨stmts, last, ended, -⟩ := program_reads eof lexemes errors.toArray
  unfold parseLexemes EStateM.run
  rw [ended]
  exact (program_allots eof _ _ stmts last ended).distinct

end Parser

end Lox
