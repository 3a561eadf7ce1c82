import Lox.Proofs.Syntax.Arrival

namespace Lox.Parser

/-- The number of levels below one. -/
def Level.depth : Level → Nat
  | .or => 5
  | .and => 4
  | .equality => 3
  | .comparison => 2
  | .term => 1
  | .factor => 0

/-- A level is at most five steps away from the operands. -/
theorem Level.depth_le (level : Level) : level.depth ≤ 5 := by
  cases level <;> decide

/-- A tighter level is one step closer to the operands. -/
theorem Level.depth_of_tighter {level tighter : Level} (below : level.tighter? = some tighter) :
    tighter.depth + 1 = level.depth := by
  cases level <;> cases below <;> rfl

/-- The operands of a level stand two ranks above those of the next. -/
def Level.rank (level : Level) : Nat := 2 * level.depth + 4

section
variable (eof : Nat)

/-- The productions of expressions make progress with an amount of fuel. -/
structure ExpressionsProgress (fuel : Nat) : Prop where
  expression (state : State) : Progress 1 (fuel < state.need 17) (expression eof fuel) state
  operand (level : Level) (state : State) :
    Progress 1 (fuel < state.need level.rank) (operand eof fuel level) state
  chain (level : Level) (state : State) :
    Progress 1 (fuel < state.need (level.rank + 1)) (chain eof fuel level) state
  chainAfter (level : Level) (left : Expr) (state : State) :
    Progress 0 (fuel < state.need 1) (chainAfter eof fuel level left) state
  unary (state : State) : Progress 1 (fuel < state.need 3) (unary eof fuel) state
  call (state : State) : Progress 1 (fuel < state.need 2) (call eof fuel) state
  callAfter (callee : Expr) (state : State) :
    Progress 0 (fuel < state.need 1) (callAfter eof fuel callee) state
  arguments (length : Nat) (state : State) :
    Progress 1 (fuel < state.need 18) (arguments eof fuel length) state
  primary (state : State) : Progress 1 (fuel < state.need 1) (primary eof fuel) state

variable {eof} {fuel : Nat} (parts : ExpressionsProgress eof fuel) (state : State)
include parts

/-- An expression takes a lexeme, and lacks fuel only with less than it needs. -/
theorem expression_progress :
    Progress 1 (fuel + 1 < state.need 17) (expression eof (fuel + 1)) state := by
  have start := Advances.refl state
  rw [expression]
  refine .bind start (parts.chain .or state) (start.lack_succ (by decide)) ?_
  intro target middle passed
  refine .step isNext_apply ?_
  split
  next sign =>
    refine .bind passed (take_progress (State.rest_ne_nil (of_decide_eq_true sign))) False.elim ?_
    intro place middle passed
    refine .bind passed (parts.expression middle) (passed.lack_succ (by decide)) ?_
    intro value last passed
    split
    · exact .pure passed _ (by decide)
    · refine .bind passed (report_progress rfl) False.elim fun _ _ passed => ?_
      exact .pure passed _ (by decide)
  next => exact .pure passed _ (by decide)

/-- An operand takes a lexeme, and lacks fuel only with less than its level needs. -/
theorem operand_progress (level : Level) :
    Progress 1 (fuel + 1 < state.need level.rank) (operand eof (fuel + 1) level) state := by
  have start := Advances.refl state
  rw [operand]
  split
  next tighter below =>
    have above := Level.depth_of_tighter below
    refine .final start (parts.chain tighter state) (start.lack_succ ?_) (by decide)
    unfold Level.rank
    omega
  next =>
    refine .final start (parts.unary state) (start.lack_succ ?_) (by decide)
    unfold Level.rank
    omega

/-- A chain takes a lexeme, and lacks fuel only with less than its level needs. -/
theorem chain_progress (level : Level) :
    Progress 1 (fuel + 1 < state.need (level.rank + 1)) (chain eof (fuel + 1) level) state := by
  have start := Advances.refl state
  rw [chain]
  refine .bind start (parts.operand level state) (start.lack_succ (by omega)) ?_
  intro left middle passed
  exact .final passed (parts.chainAfter level left middle) (passed.lack_succ (by omega)) (by decide)

/-- The rest of a chain may take nothing. -/
theorem chainAfter_progress (level : Level) (left : Expr) :
    Progress 0 (fuel + 1 < state.need 1) (chainAfter eof (fuel + 1) level left) state := by
  have start := Advances.refl state
  rw [chainAfter]
  refine .step peek?_apply ?_
  split
  next operator joins =>
    obtain ⟨symbol, next, -⟩ := Option.bind_eq_some_iff.1 joins
    refine .bind start (take_progress (State.rest_ne_nil next)) False.elim ?_
    intro place middle passed
    refine .bind passed (parts.operand level middle) (passed.lack_succ ?_) ?_
    · have := level.depth_le
      unfold Level.rank
      omega
    intro right middle passed
    exact .final passed (parts.chainAfter level _ middle) (passed.lack_succ (by decide)) (by decide)
  next => exact .pure start _ (by decide)

theorem unary_progress : Progress 1 (fuel + 1 < state.need 3) (unary eof (fuel + 1)) state := by
  have start := Advances.refl state
  rw [unary]
  refine .step peek?_apply ?_
  split
  next op stands =>
    obtain ⟨symbol, next, -⟩ := Option.bind_eq_some_iff.1 stands
    refine .bind start (take_progress (State.rest_ne_nil next)) False.elim ?_
    intro place middle passed
    refine .bind passed (parts.unary middle) (passed.lack_succ (by decide)) ?_
    intro inner last passed
    exact .pure passed _ (by decide)
  next => exact .final start (parts.call state) (start.lack_succ (by decide)) (by decide)

theorem call_progress : Progress 1 (fuel + 1 < state.need 2) (call eof (fuel + 1)) state := by
  have start := Advances.refl state
  rw [call]
  refine .bind start (parts.primary state) (start.lack_succ (by decide)) ?_
  intro callee middle passed
  exact .final passed (parts.callAfter callee middle) (passed.lack_succ (by decide)) (by decide)

theorem callAfter_progress (callee : Expr) :
    Progress 0 (fuel + 1 < state.need 1) (callAfter eof (fuel + 1) callee) state := by
  have start := Advances.refl state
  rw [callAfter]
  refine .accept start (fun middle passed => ?_) (.pure start _ (by decide))
  refine .step isNext_apply ?_
  have closing (given : List Expr) (middle : State) (passed : Advances 1 state middle) :
      Arrives state 0 (fuel + 1 < state.need 1) (do
        let paren ← expect eof .rightParen
        callAfter eof fuel (.call (callee.span.to paren) paren callee given)) middle := by
    refine .bind passed expect_progress False.elim fun paren middle passed => ?_
    exact .final passed (parts.callAfter _ middle) (passed.lack_succ (by decide)) (by decide)
  simp only
  split
  next => exact .step (Computation.pure_apply [] middle) (closing [] middle passed)
  next =>
    refine .bind passed (parts.arguments 0 middle) (passed.lack_succ (by decide)) ?_
    intro given middle passed
    exact closing given middle (passed.weaken (by decide))

/-- Arguments take at least one lexeme. -/
theorem arguments_progress (length : Nat) :
    Progress 1 (fuel + 1 < state.need 18) (arguments eof (fuel + 1) length) state := by
  have start := Advances.refl state
  rw [arguments]
  refine .bind start checkLength_progress False.elim fun _ middle passed => ?_
  refine .bind passed (parts.expression middle) (passed.lack_succ (by decide)) ?_
  intro first middle passed
  refine .accept passed (fun middle passed => ?_) (.pure passed _ (by decide))
  refine .bind passed (parts.arguments (length + 1) middle) (passed.lack_succ (by decide)) ?_
  intro others last passed
  exact .pure passed _ (by decide)

/-- A primary expression takes a lexeme, or refuses it. -/
theorem primary_progress : Progress 1 (fuel + 1 < state.need 1) (primary eof (fuel + 1)) state := by
  have start := Advances.refl state
  rw [primary]
  refine .step (Computation.get_apply _) ?_
  split
  next => exact .final start (refuse_progress 1) False.elim (by decide)
  next token text span rest split =>
    have some : state.rest ≠ [] := by simp [split]
    split
    next name =>
      have passed := start.trans (freshId_progress.advances freshId_apply)
      refine .step freshId_apply (.bind passed (take_progress some) False.elim ?_)
      intro place last passed
      exact .pure passed _ (by decide)
    next =>
      refine .bind start (take_progress some) False.elim fun opening middle passed => ?_
      refine .bind passed (parts.expression middle) (passed.lack_succ (by decide)) ?_
      intro inner middle passed
      refine .bind passed expect_progress False.elim fun closing last passed => ?_
      exact .pure passed _ (by decide)
    next =>
      split
      next value =>
        refine .bind start (take_progress some) False.elim fun place last passed => ?_
        exact .pure passed _ (by decide)
      next => exact .final start (refuse_progress 1) False.elim (by decide)

end

/-- Expressions make progress with any amount of fuel. -/
theorem expressionsProgress (eof fuel : Nat) : ExpressionsProgress eof fuel := by
  induction fuel with
  | zero =>
      have none (state : State) (rank : Nat) : 0 < state.need (rank + 1) := Nat.succ_pos _
      exact ⟨fun state => .outOfFuel (none state _), fun _ state => .outOfFuel (none state _),
        fun _ state => .outOfFuel (none state _), fun _ _ state => .outOfFuel (none state _),
        fun state => .outOfFuel (none state _), fun state => .outOfFuel (none state _),
        fun _ state => .outOfFuel (none state _), fun _ state => .outOfFuel (none state _),
        fun state => .outOfFuel (none state _)⟩
  | succ fuel parts =>
      exact ⟨expression_progress parts, fun level state => operand_progress parts state level,
        fun level state => chain_progress parts state level,
        fun level left state => chainAfter_progress parts state level left,
        unary_progress parts, call_progress parts,
        fun callee state => callAfter_progress parts state callee,
        fun length state => arguments_progress parts state length, primary_progress parts⟩

section
variable (eof fuel : Nat) (state : State)

theorem parameters_progress (length : Nat) :
    Progress 1 (fuel < state.need 1) (parameters eof fuel length) state := by
  induction fuel generalizing state length with
  | zero => exact .outOfFuel (Nat.succ_pos _)
  | succ fuel ih =>
      have start := Advances.refl state
      rw [parameters]
      refine .bind start checkLength_progress False.elim fun _ middle passed => ?_
      refine .bind passed expectName_progress False.elim fun first middle passed => ?_
      refine .accept passed (fun middle passed => ?_) (.pure passed _ (by decide))
      refine .bind passed (ih middle (length + 1)) (passed.lack_succ (by decide)) ?_
      intro others last passed
      exact .pure passed _ (by decide)

/-- A condition takes its parentheses and at least one lexeme more. -/
theorem condition_progress : Progress 3 (fuel < state.need 0) (condition eof fuel) state := by
  have start := Advances.refl state
  simp only [condition, Computation.discard_bind]
  refine .bind start expect_progress False.elim fun _ middle passed => ?_
  refine .bind passed ((expressionsProgress eof fuel).expression middle)
    (passed.lack (by decide)) ?_
  intro test middle passed
  refine .bind passed expect_progress False.elim fun _ last passed => ?_
  exact .pure passed _ (by decide)

/-- A variable's declaration takes at least its name and its semicolon. -/
theorem variableDeclaration_progress (offset : Nat) :
    Progress 2 (fuel < state.need 0) (variableDeclaration eof fuel offset) state := by
  have start := Advances.refl state
  simp only [variableDeclaration, Computation.discard_bind]
  refine .bind start expectName_progress False.elim fun name middle passed => ?_
  have closing (initializer : Option Expr) (middle : State) (passed : Advances 1 state middle) :
      Arrives state 2 (fuel < state.need 0) (do
        let _ ← expect eof .semicolon
        let span ← spanFrom offset
        return Stmt.variable span name initializer) middle := by
    refine .bind passed expect_progress False.elim fun _ last passed => ?_
    exact .step spanFrom_apply (.pure passed _ (by decide))
  refine .accept passed (fun middle passed => ?_) ?_
  · have value := (expressionsProgress eof fuel).expression middle
    refine .bind passed (value.map some) (passed.lack (by decide)) ?_
    intro initializer middle passed
    exact closing initializer middle (passed.weaken (by decide))
  · exact .step (Computation.pure_apply none middle) (closing none middle passed)

/-- An expression statement takes at least one lexeme and its semicolon. -/
theorem expressionStatement_progress :
    Progress 2 (fuel < state.need 17) (expressionStatement eof fuel) state := by
  have start := Advances.refl state
  simp only [expressionStatement, Computation.discard_bind]
  refine .step here_apply ?_
  refine .bind start ((expressionsProgress eof fuel).expression state) id ?_
  intro value middle passed
  refine .bind passed expect_progress False.elim fun _ last passed => ?_
  exact .step spanFrom_apply (.pure passed _ (by decide))

theorem loopStart_progress : Progress 1 (fuel < state.need 17) (loopStart eof fuel) state := by
  have start := Advances.refl state
  rw [loopStart]
  refine .accept start (fun middle passed => .pure passed _ (by decide)) ?_
  refine .step isNext_apply ?_
  split
  next declares =>
    have some := State.rest_ne_nil (of_decide_eq_true declares)
    refine .bind start (take_progress some) False.elim fun _ middle passed => ?_
    exact .final passed ((variableDeclaration_progress eof fuel middle _).map Option.some)
      (passed.lack (by decide)) (by decide)
  next =>
    exact .final start ((expressionStatement_progress eof fuel state).map some) id (by decide)

/-- An expression that may be absent may take nothing. -/
theorem expressionUnless_progress (closing : Symbol) :
    Progress 0 (fuel < state.need 17) (expressionUnless eof fuel closing) state := by
  have start := Advances.refl state
  rw [expressionUnless]
  refine .step isNext_apply ?_
  split
  next => exact .pure start _ (by decide)
  next =>
    have value := (expressionsProgress eof fuel).expression state
    exact .final start (value.map some) id (by decide)

end

/-- Recovery passes at least one lexeme where one is left. -/
theorem recover_passes (rest : List Lexeme) :
    ∃ taken, rest = taken ++ recover rest ∧ (rest ≠ [] → 1 ≤ taken.length) := by
  fun_induction recover rest with
  | case1 => exact ⟨[], rfl, by simp⟩
  | case2 lexeme => exact ⟨[lexeme], rfl, by simp⟩
  | case3 lexeme next rest starts => exact ⟨[lexeme], rfl, by simp⟩
  | case4 lexeme next rest inside ih =>
      obtain ⟨taken, split, -⟩ := ih
      exact ⟨lexeme :: taken, by rw [List.cons_append, ← split], by simp⟩

/-- A statement that is given up is left behind by at least one lexeme. -/
theorem attempt_progress {lack : Prop} {statement : Production Stmt} {state : State}
    (some : state.rest ≠ []) (progress : Progress 1 lack statement state) :
    Progress 1 lack (attempt statement) state := by
  unfold Progress Arrives attempt
  cases ended : statement state with
  | ok stmt last => exact progress.advances ended
  | error stop last =>
      cases stop with
      | outOfFuel => exact progress.lacks ended
      | error error =>
          obtain ⟨static, advances⟩ := progress.stopped ended
          obtain ⟨taken, split, -⟩ := advances.passed
          obtain ⟨skipped, recovered, passes⟩ := recover_passes last.rest
          obtain ⟨found, reported, found_static⟩ := advances.reported
          refine ⟨⟨taken ++ skipped, ?_, ?_⟩, advances.numbered, ⟨found ++ [error], ?_, ?_⟩⟩
          · rw [split, List.append_assoc]
            exact congrArg (taken ++ ·) recovered
          · rw [List.length_append]
            by_cases ends : last.rest = []
            · rw [ends, List.append_nil] at split
              have := List.length_pos_iff.2 (split ▸ some)
              omega
            · have := passes ends
              omega
          · simp [reported]
          · intro other given
            rcases List.mem_append.1 given with early | late
            · exact found_static other early
            · rw [List.mem_singleton.1 late]
              exact static

/-- An error in a statement that is tried does not leave it. -/
theorem attempt_ne_error {statement : Production Stmt} {state last : State}
    {error : Located Error} : attempt statement state ≠ .error (.error error) last := by
  unfold attempt
  split <;> exact nofun

/-- A declaration recovers from its errors itself. -/
theorem declaration_ne_error {eof fuel : Nat} {state last : State} {error : Located Error} :
    declaration eof fuel state ≠ .error (.error error) last := by
  cases fuel with
  | zero => exact nofun
  | succ fuel =>
      rw [declaration]
      exact attempt_ne_error

section
variable (eof : Nat)

/-- The productions of statements make progress with an amount of fuel. -/
structure StatementsProgress (fuel : Nat) : Prop where
  declaration (state : State) (some : state.rest ≠ []) :
    Progress 1 (fuel < state.need 19) (declaration eof fuel) state
  functionDeclaration (offset : Nat) (state : State) :
    Progress 1 (fuel < state.need 1) (functionDeclaration eof fuel offset) state
  statement (state : State) : Progress 1 (fuel < state.need 18) (statement eof fuel) state
  forStatement (offset : Nat) (state : State) :
    Progress 1 (fuel < state.need 1) (forStatement eof fuel offset) state
  blockBody (state : State) : Progress 1 (fuel < state.need 20) (blockBody eof fuel) state

variable {eof} {fuel : Nat} (parts : StatementsProgress eof fuel) (state : State)
include parts

/-- What a declaration attempts. -/
theorem attempted_progress :
    Progress 1 (fuel + 1 < state.need 19)
      (do
        let start := (← here eof).start
        if ← accept .fun then
          functionDeclaration eof fuel start
        else if ← accept .var then
          variableDeclaration eof fuel start
        else
          statement eof fuel) state := by
  have start := Advances.refl state
  refine .step here_apply ?_
  refine .accept start (fun middle passed => ?_) (.accept start (fun middle passed => ?_) ?_)
  · exact .final passed (parts.functionDeclaration _ middle) (passed.lack_succ (by decide))
      (by decide)
  · exact .final passed (variableDeclaration_progress eof fuel middle _)
      (passed.lack_succ (by decide)) (by decide)
  · exact .final start (parts.statement state) (start.lack_succ (by decide)) (by decide)

/-- A declaration takes a lexeme, also if it is dropped. -/
theorem declaration_progress (some : state.rest ≠ []) :
    Progress 1 (fuel + 1 < state.need 19) (declaration eof (fuel + 1)) state := by
  rw [declaration]
  exact attempt_progress some (attempted_progress parts state)

theorem functionDeclaration_progress (offset : Nat) :
    Progress 1 (fuel + 1 < state.need 1) (functionDeclaration eof (fuel + 1) offset) state := by
  have start := Advances.refl state
  simp only [functionDeclaration, Computation.discard_bind]
  refine .bind start expectName_progress False.elim fun name middle passed => ?_
  refine .bind passed expect_progress False.elim fun _ middle passed => ?_
  refine .step isNext_apply ?_
  have closing (given : List Name) (middle : State) (passed : Advances 2 state middle) :
      Arrives state 1 (fuel + 1 < state.need 1) (do
        let _ ← expect eof .rightParen
        let _ ← expect eof .leftBrace
        let body ← blockBody eof fuel
        let span ← spanFrom offset
        return Stmt.function span name given body) middle := by
    refine .bind passed expect_progress False.elim fun _ middle passed => ?_
    refine .bind passed expect_progress False.elim fun _ middle passed => ?_
    refine .bind passed (parts.blockBody middle) (passed.lack_succ (by decide)) ?_
    intro body last passed
    exact .step spanFrom_apply (.pure passed _ (by decide))
  split
  next => exact .step (Computation.pure_apply [] middle) (closing [] middle passed)
  next =>
    refine .bind passed (parameters_progress eof fuel middle 0) (passed.lack_succ (by decide)) ?_
    intro given middle passed
    exact closing given middle (passed.weaken (by decide))

/-- A `for` loop takes a lexeme behind its keyword. -/
theorem forStatement_progress (offset : Nat) :
    Progress 1 (fuel + 1 < state.need 1) (forStatement eof (fuel + 1) offset) state := by
  have start := Advances.refl state
  simp only [forStatement, Computation.discard_bind]
  refine .bind start expect_progress False.elim fun _ middle passed => ?_
  refine .bind passed (loopStart_progress eof fuel middle) (passed.lack_succ (by decide)) ?_
  intro first middle passed
  refine .bind passed (expressionUnless_progress eof fuel middle .semicolon)
    (passed.lack_succ (by decide)) ?_
  intro test middle passed
  refine .bind passed expect_progress False.elim fun _ middle passed => ?_
  refine .bind passed (expressionUnless_progress eof fuel middle .rightParen)
    (passed.lack_succ (by decide)) ?_
  intro step middle passed
  refine .bind passed expect_progress False.elim fun _ middle passed => ?_
  refine .bind passed (parts.statement middle) (passed.lack_succ (by decide)) ?_
  intro body last passed
  exact .step spanFrom_apply (.pure passed _ (by decide))

/-- A statement takes a lexeme. -/
theorem statement_progress :
    Progress 1 (fuel + 1 < state.need 18) (statement eof (fuel + 1)) state := by
  have start := Advances.refl state
  have expressions := expressionsProgress eof fuel
  simp only [statement, Computation.discard_bind]
  refine .step here_apply (.step peek?_apply ?_)
  have keyword {symbol : Symbol} (next : state.next? = some symbol) :
      Progress 1 False (take eof) state := take_progress (State.rest_ne_nil next)
  split
  next next =>
    refine .bind start (keyword next) False.elim fun _ middle passed => ?_
    exact .final passed (parts.forStatement _ middle) (passed.lack_succ (by decide)) (by decide)
  next next =>
    refine .bind start (keyword next) False.elim fun _ middle passed => ?_
    refine .bind passed (condition_progress eof fuel middle) (passed.lack_succ (by decide)) ?_
    intro test middle passed
    refine .bind passed (parts.statement middle) (passed.lack_succ (by decide)) ?_
    intro consequent middle passed
    have closing (alternative : Option Stmt) (middle : State) (passed : Advances 5 state middle) :
        Arrives state 1 (fuel + 1 < state.need 18) (do
          let span ← spanFrom (state.here eof).start
          return Stmt.branch span test consequent alternative) middle :=
      .step spanFrom_apply (.pure passed _ (by decide))
    refine .accept passed (fun middle passed => ?_) ?_
    · refine .bind passed ((parts.statement middle).map some) (passed.lack_succ (by decide)) ?_
      intro alternative last passed
      exact closing alternative last (passed.weaken (by decide))
    · exact .step (Computation.pure_apply none middle) (closing none middle passed)
  next next =>
    refine .bind start (keyword next) False.elim fun _ middle passed => ?_
    refine .bind passed (expressions.expression middle) (passed.lack_succ (by decide)) ?_
    intro value middle passed
    refine .bind passed expect_progress False.elim fun _ last passed => ?_
    exact .step spanFrom_apply (.pure passed _ (by decide))
  next next =>
    refine .bind start (keyword next) False.elim fun _ middle passed => ?_
    refine .bind passed (expressionUnless_progress eof fuel middle .semicolon)
      (passed.lack_succ (by decide)) ?_
    intro value middle passed
    refine .bind passed expect_progress False.elim fun _ last passed => ?_
    exact .step spanFrom_apply (.pure passed _ (by decide))
  next next =>
    refine .bind start (keyword next) False.elim fun _ middle passed => ?_
    refine .bind passed (condition_progress eof fuel middle) (passed.lack_succ (by decide)) ?_
    intro test middle passed
    refine .bind passed (parts.statement middle) (passed.lack_succ (by decide)) ?_
    intro body last passed
    exact .step spanFrom_apply (.pure passed _ (by decide))
  next next =>
    refine .bind start (keyword next) False.elim fun _ middle passed => ?_
    refine .bind passed (parts.blockBody middle) (passed.lack_succ (by decide)) ?_
    intro body last passed
    exact .step spanFrom_apply (.pure passed _ (by decide))
  next =>
    exact .final start (expressionStatement_progress eof fuel state)
      (start.lack_succ (by decide)) (by decide)

/-- A block takes at least its closing brace. -/
theorem blockBody_progress :
    Progress 1 (fuel + 1 < state.need 20) (blockBody eof (fuel + 1)) state := by
  have start := Advances.refl state
  simp only [blockBody, Computation.discard_bind]
  refine .step isNext_apply (.step atEnd_apply ?_)
  split
  next =>
    refine .bind start expect_progress False.elim fun _ last passed => ?_
    exact .pure passed _ (by decide)
  next inside =>
    have some : state.rest ≠ [] := by simp_all
    refine .bind start (parts.declaration state some) (start.lack_succ (by decide)) ?_
    intro first middle passed
    refine .bind passed (parts.blockBody middle) (passed.lack_succ (by decide)) ?_
    intro others last passed
    exact .pure passed _ (by decide)

end

/-- Statements make progress with any amount of fuel. -/
theorem statementsProgress (eof fuel : Nat) : StatementsProgress eof fuel := by
  induction fuel with
  | zero =>
      have none (state : State) (rank : Nat) : 0 < state.need (rank + 1) := Nat.succ_pos _
      exact ⟨fun state _ => .outOfFuel (none state _), fun _ state => .outOfFuel (none state _),
        fun state => .outOfFuel (none state _), fun _ state => .outOfFuel (none state _),
        fun state => .outOfFuel (none state _)⟩
  | succ fuel parts =>
      exact ⟨declaration_progress parts,
        fun offset state => functionDeclaration_progress parts state offset,
        statement_progress parts, fun offset state => forStatement_progress parts state offset,
        blockBody_progress parts⟩

/-- A program is read up to its end, and it only lacks fuel if it has little of it. -/
theorem program_progress (eof fuel : Nat) (state : State) :
    Progress 0 (fuel < state.need 20) (program eof fuel) state := by
  induction fuel generalizing state with
  | zero => exact .outOfFuel (Nat.succ_pos _)
  | succ fuel ih =>
      have start := Advances.refl state
      rw [program]
      refine .step atEnd_apply ?_
      split
      next => exact .pure start _ (by decide)
      next inside =>
        have some : state.rest ≠ [] := by simpa using inside
        refine .bind start ((statementsProgress eof fuel).declaration state some)
          (start.lack_succ (by decide)) ?_
        intro first middle passed
        refine .bind passed (ih middle) (passed.lack_succ (by decide)) ?_
        intro others last passed
        exact .pure passed _ (by decide)

/-- Errors of the text do not stop a program: they stop its declarations. -/
theorem program_ne_error {eof fuel : Nat} {state last : State} {error : Located Error} :
    program eof fuel state ≠ .error (.error error) last := by
  induction fuel generalizing state with
  | zero => exact nofun
  | succ fuel ih =>
      intro stopped
      rw [program, Computation.bind_of_ok atEnd_apply] at stopped
      split at stopped
      · cases stopped
      · rcases Computation.bind_eq_error.1 stopped with given | ⟨first, middle, -, rest⟩
        · exact declaration_ne_error given
        · rcases Computation.bind_eq_error.1 rest with later | ⟨others, behind, -, ended⟩
          · exact ih later
          · cases ended

/-- A text has enough fuel for all of its lexemes, which are read up to the last one. -/
theorem program_reads (eof : Nat) (lexemes : List Lexeme) (errors : Array (Located Error)) :
    ∃ statements last,
      program eof (enoughFuel lexemes) ⟨lexemes, 0, 0, errors⟩ = .ok statements last ∧
        Advances 0 ⟨lexemes, 0, 0, errors⟩ last := by
  have progress := program_progress eof (enoughFuel lexemes) ⟨lexemes, 0, 0, errors⟩
  cases ended : program eof (enoughFuel lexemes) ⟨lexemes, 0, 0, errors⟩ with
  | ok statements last => exact ⟨statements, last, rfl, progress.advances ended⟩
  | error stop last =>
      cases stop with
      | error error => exact absurd ended program_ne_error
      | outOfFuel =>
          have lacking := progress.lacks ended
          simp only [enoughFuel, State.need, fuelPerLexeme] at lacking
          omega

end Lox.Parser
