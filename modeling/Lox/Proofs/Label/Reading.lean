import Lox.Proofs.Label.Moving
import Lox.Proofs.Syntax.Progress

namespace Lox.Parser

open Lox.Computation

section
variable (move : Move) (eof : Nat) (earlier : List (Located Error))

/-- The productions of expressions mirror each other with amounts of fuel. -/
structure ExpressionsMirror (fuel extra : Nat) : Prop where
  expression : ∀ {state}, Apart eof state →
    Mirrors move eof earlier move.relabeling.expr (expression eof fuel)
      (expression (move.starts eof) extra) state
  operand : ∀ level {state}, Apart eof state →
    Mirrors move eof earlier move.relabeling.expr (operand eof fuel level)
      (operand (move.starts eof) extra level) state
  chain : ∀ level {state}, Apart eof state →
    Mirrors move eof earlier move.relabeling.expr (chain eof fuel level)
      (chain (move.starts eof) extra level) state
  chainAfter : ∀ level left {state}, Apart eof state →
    Mirrors move eof earlier move.relabeling.expr (chainAfter eof fuel level left)
      (chainAfter (move.starts eof) extra level (move.relabeling.expr left)) state
  unary : ∀ {state}, Apart eof state →
    Mirrors move eof earlier move.relabeling.expr (unary eof fuel)
      (unary (move.starts eof) extra) state
  call : ∀ {state}, Apart eof state →
    Mirrors move eof earlier move.relabeling.expr (call eof fuel)
      (call (move.starts eof) extra) state
  callAfter : ∀ callee {state}, Apart eof state →
    Mirrors move eof earlier move.relabeling.expr (callAfter eof fuel callee)
      (callAfter (move.starts eof) extra (move.relabeling.expr callee)) state
  arguments : ∀ length {state}, Apart eof state →
    Mirrors move eof earlier move.relabeling.exprs (arguments eof fuel length)
      (arguments (move.starts eof) extra length) state
  primary : ∀ {state}, Apart eof state →
    Mirrors move eof earlier move.relabeling.expr (primary eof fuel)
      (primary (move.starts eof) extra) state

end

section
variable {move : Move} {eof : Nat} {earlier : List (Located Error)} {fuel extra : Nat}
  {state : State} (parts : ExpressionsMirror move eof earlier fuel extra) (apart : Apart eof state)
include parts apart

/-- An expression is read alike from moved lexemes. -/
theorem expression_mirrors :
    Mirrors move eof earlier move.relabeling.expr (expression eof (fuel + 1))
      (expression (move.starts eof) (extra + 1)) state := by
  rw [expression, expression]
  apply (parts.chain .or apart).bind
  intro target middle apart
  apply Mirrors.isNext
  split
  next sign =>
    cases place : middle.rest with
    | nil => simp [State.next?, place] at sign
    | cons lexeme rest =>
        have distinct := apart lexeme (by simp [place])
        apply Mirrors.take apart place
        intro middle apart
        apply (parts.expression apart).bind
        intro value last apart
        cases target with
        | «variable» target =>
            simp only [Relabeling.expr, Relabeling.expr_span]
            exact .pure apart
        | _ =>
            have moved : ⟨.invalidAssignmentTarget, move.relabeling.spans lexeme.span⟩ =
                move.error eof ⟨.invalidAssignmentTarget, lexeme.span⟩ := (if_neg distinct).symm
            exact .report moved (.pure apart)
  next => exact .pure apart

/-- An operand is read alike from moved lexemes. -/
theorem operand_mirrors (level : Level) :
    Mirrors move eof earlier move.relabeling.expr (operand eof (fuel + 1) level)
      (operand (move.starts eof) (extra + 1) level) state := by
  rw [operand, operand]
  split
  next tighter _ => exact parts.chain tighter apart
  next => exact parts.unary apart

/-- A chain of operands is read alike from moved lexemes. -/
theorem chain_mirrors (level : Level) :
    Mirrors move eof earlier move.relabeling.expr (chain eof (fuel + 1) level)
      (chain (move.starts eof) (extra + 1) level) state := by
  rw [chain, chain]
  apply (parts.operand level apart).bind
  intro left middle apart
  exact parts.chainAfter level left apart

/-- The rest of a chain is read alike from moved lexemes. -/
theorem chainAfter_mirrors (level : Level) (left : Expr) :
    Mirrors move eof earlier move.relabeling.expr (chainAfter eof (fuel + 1) level left)
      (chainAfter (move.starts eof) (extra + 1) level (move.relabeling.expr left)) state := by
  rw [chainAfter, chainAfter]
  apply Mirrors.peek?
  split
  next operator joins =>
    obtain ⟨symbol, next, joins⟩ := Option.bind_eq_some_iff.1 joins
    apply Mirrors.takeSymbol apart next
    intro place middle apart
    apply (parts.operand level apart).bind
    intro right last apart
    have joined : operator.apply (move.relabeling.spans place) (move.relabeling.expr left)
        (move.relabeling.expr right) = move.relabeling.expr (operator.apply place left right) := by
      cases operator <;>
        simp only [Operator.apply, Relabeling.expr, Relabeling.expr_span, Move.relabeling_to] <;> rfl
    rw [joined]
    exact parts.chainAfter level _ apart
  next => exact .pure apart

/-- An operator before its operand is read alike from moved lexemes. -/
theorem unary_mirrors :
    Mirrors move eof earlier move.relabeling.expr (unary eof (fuel + 1))
      (unary (move.starts eof) (extra + 1)) state := by
  rw [unary, unary]
  apply Mirrors.peek?
  split
  next op stands =>
    obtain ⟨symbol, next, stands⟩ := Option.bind_eq_some_iff.1 stands
    apply Mirrors.takeSymbol apart next
    intro place middle apart
    apply (parts.unary apart).bind
    intro inner last apart
    rw [Relabeling.expr_span]
    exact .pure apart
  next => exact parts.call apart

/-- A call is read alike from moved lexemes. -/
theorem call_mirrors :
    Mirrors move eof earlier move.relabeling.expr (call eof (fuel + 1))
      (call (move.starts eof) (extra + 1)) state := by
  rw [call, call]
  apply (parts.primary apart).bind
  intro callee middle apart
  exact parts.callAfter callee apart

/-- The rest of a call is read alike from moved lexemes. -/
theorem callAfter_mirrors (callee : Expr) :
    Mirrors move eof earlier move.relabeling.expr (callAfter eof (fuel + 1) callee)
      (callAfter (move.starts eof) (extra + 1) (move.relabeling.expr callee)) state := by
  rw [callAfter, callAfter]
  apply Mirrors.accept apart
  · intro middle apart
    -- Both with and without arguments the call goes on behind its closing parenthesis.
    have closing (given : List Expr) (middle : State) (apart : Apart eof middle) :
        Mirrors move eof earlier move.relabeling.expr
          (do
            let paren ← expect eof .rightParen
            callAfter eof fuel (.call (callee.span.to paren) paren callee given))
          (do
            let paren ← expect (move.starts eof) .rightParen
            callAfter (move.starts eof) extra
              (.call ((move.relabeling.expr callee).span.to paren) paren
                (move.relabeling.expr callee) (move.relabeling.exprs given)))
          middle := by
      apply (expect_mirrors .rightParen apart).bind
      intro paren last apart
      rw [Relabeling.expr_span]
      exact parts.callAfter _ apart
    simp only [if_true]
    apply Mirrors.isNext
    split
    next => exact .step (pure_apply [] middle) (pure_apply [] _) (closing [] middle apart)
    next =>
      apply (parts.arguments 0 apart).bind
      intro given last apart
      exact closing given last apart
  · exact .pure apart

/-- Arguments are read alike from moved lexemes. -/
theorem arguments_mirrors (length : Nat) :
    Mirrors move eof earlier move.relabeling.exprs (arguments eof (fuel + 1) length)
      (arguments (move.starts eof) (extra + 1) length) state := by
  rw [arguments, arguments]
  apply Mirrors.checkLength apart
  intro middle apart
  apply (parts.expression apart).bind
  intro first middle apart
  apply Mirrors.accept apart
  · intro middle apart
    apply (parts.arguments (length + 1) apart).bind
    intro others last apart
    exact .pure apart
  · exact .pure apart

/-- A primary expression is read alike from moved lexemes. -/
theorem primary_mirrors :
    Mirrors move eof earlier move.relabeling.expr (primary eof (fuel + 1))
      (primary (move.starts eof) (extra + 1)) state := by
  rw [primary, primary]
  refine .step (get_apply _) (get_apply _) ?_
  cases next : state.rest with
  | nil =>
      simp only [Move.state, next, List.map_nil]
      exact .refuse apart
  | cons lexeme rest =>
      obtain ⟨token, text, span⟩ := lexeme
      rw [rest_moved next]
      simp only [Move.lexeme]
      split
      next name =>
        apply Mirrors.freshId apart
        intro middle same apart
        apply Mirrors.take apart (same.trans next)
        intro last apart
        exact .pure apart
      next =>
        apply Mirrors.take apart next
        intro middle apart
        apply (parts.expression apart).bind
        intro inner middle apart
        apply (expect_mirrors .rightParen apart).bind
        intro closing last apart
        exact .pure apart
      next =>
        split
        next value _ =>
          apply Mirrors.take apart next
          intro last apart
          exact .pure apart
        next => exact .refuse apart

end

/-- Expressions mirror each other with any amounts of fuel. -/
theorem expressionsMirror (move : Move) (eof : Nat) (earlier : List (Located Error))
    (fuel extra : Nat) : ExpressionsMirror move eof earlier fuel extra := by
  induction fuel generalizing extra with
  | zero =>
      exact ⟨fun _ => .outOfFuel_left, fun _ _ _ => .outOfFuel_left, fun _ _ _ => .outOfFuel_left,
        fun _ _ _ _ => .outOfFuel_left, fun _ => .outOfFuel_left, fun _ => .outOfFuel_left,
        fun _ _ _ => .outOfFuel_left, fun _ _ _ => .outOfFuel_left, fun _ => .outOfFuel_left⟩
  | succ fuel ih =>
      cases extra with
      | zero =>
          exact ⟨fun _ => .outOfFuel_right, fun _ _ _ => .outOfFuel_right,
            fun _ _ _ => .outOfFuel_right, fun _ _ _ _ => .outOfFuel_right,
            fun _ => .outOfFuel_right, fun _ => .outOfFuel_right, fun _ _ _ => .outOfFuel_right,
            fun _ _ _ => .outOfFuel_right, fun _ => .outOfFuel_right⟩
      | succ extra =>
          have parts := ih extra
          exact ⟨expression_mirrors parts, fun level _ apart => operand_mirrors parts apart level,
            fun level _ apart => chain_mirrors parts apart level,
            fun level left _ apart => chainAfter_mirrors parts apart level left,
            unary_mirrors parts, call_mirrors parts,
            fun callee _ apart => callAfter_mirrors parts apart callee,
            fun length _ apart => arguments_mirrors parts apart length, primary_mirrors parts⟩

section
variable {move : Move} {eof : Nat} {earlier : List (Located Error)} {state : State}
  (fuel extra : Nat) (apart : Apart eof state)
include apart

/-- Parameters are read alike from moved lexemes. -/
theorem parameters_mirrors (length : Nat) :
    Mirrors move eof earlier (List.map move.relabeling.located) (parameters eof fuel length)
      (parameters (move.starts eof) extra length) state := by
  induction fuel generalizing extra length state with
  | zero => exact .outOfFuel_left
  | succ fuel ih =>
      cases extra with
      | zero => exact .outOfFuel_right
      | succ extra =>
          rw [parameters, parameters]
          apply Mirrors.checkLength apart
          intro middle apart
          apply (expectName_mirrors "parameter name" apart).bind
          intro first middle apart
          apply Mirrors.accept apart
          · intro middle apart
            apply (ih extra apart (length + 1)).bind
            intro others last apart
            exact .pure apart
          · exact .pure apart

/-- A condition is read alike from moved lexemes. -/
theorem condition_mirrors :
    Mirrors move eof earlier move.relabeling.expr (condition eof fuel)
      (condition (move.starts eof) extra) state := by
  simp only [condition, discard_bind]
  apply (expect_mirrors .leftParen apart).bind
  intro opening middle apart
  apply ((expressionsMirror move eof earlier fuel extra).expression apart).bind
  intro test middle apart
  apply (expect_mirrors .rightParen apart).bind
  intro closing last apart
  exact .pure apart

/-- A variable declaration is read alike from moved lexemes. -/
theorem variableDeclaration_mirrors (start : Nat) :
    Mirrors move eof earlier move.relabeling.stmt (variableDeclaration eof fuel start)
      (variableDeclaration (move.starts eof) extra (move.starts start)) state := by
  simp only [variableDeclaration, discard_bind]
  apply (expectName_mirrors "variable name" apart).bind
  intro name middle apart
  -- With and without an initializer the declaration goes on to the semicolon.
  have closing (initializer : Option Expr) (middle : State) (apart : Apart eof middle) :
      Mirrors move eof earlier move.relabeling.stmt
        (do
          let _ ← expect eof .semicolon
          let span ← spanFrom start
          return Stmt.variable span name initializer)
        (do
          let _ ← expect (move.starts eof) .semicolon
          let span ← spanFrom (move.starts start)
          return Stmt.variable span (move.relabeling.located name)
            (initializer.map move.relabeling.expr))
        middle := by
    apply (expect_mirrors .semicolon apart).bind
    intro sign last apart
    exact .spanFrom (.pure apart)
  apply Mirrors.accept apart
  · intro middle apart
    have value := (expressionsMirror move eof earlier fuel extra).expression apart
    apply (value.mapSome).bind
    intro initializer last apart
    exact closing initializer last apart
  · exact .step (pure_apply none middle) (pure_apply none _) (closing none middle apart)

/-- An expression statement is read alike from moved lexemes. -/
theorem expressionStatement_mirrors :
    Mirrors move eof earlier move.relabeling.stmt (expressionStatement eof fuel)
      (expressionStatement (move.starts eof) extra) state := by
  simp only [expressionStatement, discard_bind]
  apply Mirrors.here
  rw [here_moved]
  apply ((expressionsMirror move eof earlier fuel extra).expression apart).bind
  intro value middle apart
  apply (expect_mirrors .semicolon apart).bind
  intro sign last apart
  exact .spanFrom (.pure apart)

/-- The first part of a counting loop is read alike from moved lexemes. -/
theorem loopStart_mirrors :
    Mirrors move eof earlier (Option.map move.relabeling.stmt) (loopStart eof fuel)
      (loopStart (move.starts eof) extra) state := by
  rw [loopStart, loopStart]
  apply Mirrors.accept apart
  · intro last apart
    exact .pure apart
  simp only [Bool.false_eq_true, if_false]
  apply Mirrors.isNext
  split
  next declares =>
    apply Mirrors.takeSymbol apart (of_decide_eq_true declares)
    intro keyword middle apart
    exact (variableDeclaration_mirrors fuel extra apart keyword.start).mapSome
  next => exact (expressionStatement_mirrors fuel extra apart).mapSome

/-- An expression that may be missing is read alike from moved lexemes. -/
theorem expressionUnless_mirrors (closing : Symbol) :
    Mirrors move eof earlier (Option.map move.relabeling.expr) (expressionUnless eof fuel closing)
      (expressionUnless (move.starts eof) extra closing) state := by
  rw [expressionUnless, expressionUnless]
  apply Mirrors.isNext
  split
  next => exact .pure apart
  next => exact ((expressionsMirror move eof earlier fuel extra).expression apart).mapSome

end

/-- Reading goes on at the same lexeme after an error, moved or not. -/
theorem recover_map (move : Move) (rest : List Lexeme) :
    (recover rest).map move.lexeme = recover (rest.map move.lexeme) := by
  fun_induction recover rest with
  | case1 => rfl
  | case2 => rfl
  | case3 lexeme next rest ends => exact (if_pos ends).symm
  | case4 lexeme next rest goes ih => exact ih.trans (if_neg goes).symm

/-- A statement that may be given up is read alike from moved lexemes. -/
theorem Mirrors.attempt {move : Move} {eof : Nat} {earlier : List (Located Error)} {state : State}
    {statement moved : Production Stmt}
    (mirrors : Mirrors move eof earlier move.relabeling.stmt statement moved state) :
    Mirrors move eof earlier (Option.map move.relabeling.stmt) (attempt statement) (attempt moved)
      state := by
  unfold Mirrors Parser.attempt at *
  cases ended : statement state with
  | ok stmt last =>
      cases also : moved (move.state eof earlier state) with
      | ok other after =>
          rw [ended, also] at mirrors
          obtain ⟨apart, rfl, rfl⟩ := mirrors
          exact ⟨apart, rfl, rfl⟩
      | error stop after =>
          rw [ended, also] at mirrors
          cases stop with
          | error error => exact mirrors.elim
          | outOfFuel => trivial
  | error stop last =>
      cases stop with
      | outOfFuel => trivial
      | error error =>
          cases also : moved (move.state eof earlier state) with
          | ok other after =>
              rw [ended, also] at mirrors
              exact mirrors.elim
          | error stop after =>
              rw [ended, also] at mirrors
              cases stop with
              | outOfFuel => trivial
              | error other =>
                  obtain ⟨apart, rfl, rfl⟩ := mirrors
                  obtain ⟨skipped, recovered, -⟩ := recover_passes last.rest
                  refine ⟨fun lexeme given => apart lexeme ?_, rfl, ?_⟩
                  · rw [recovered]
                    exact List.mem_append_right skipped given
                  · simp [Move.state, recover_map]

/-- The tree of a counting loop has the other labels in its parts. -/
theorem forLoop_relabel (relabeling : Relabeling) (span : Span) (initial : Option Stmt)
    (test step : Option Expr) (body : Stmt) :
    relabeling.stmt (.forLoop span initial test step body) =
      .forLoop (relabeling.spans span) (initial.map relabeling.stmt) (test.map relabeling.expr)
        (step.map relabeling.expr) (relabeling.stmt body) := by
  cases initial <;> cases test <;> cases step <;>
    simp [Stmt.forLoop, Relabeling.stmt, Relabeling.stmts, Relabeling.expr]

/-- A statement that may be missing has the other labels in front of others. -/
theorem stmts_toList_append (relabeling : Relabeling) (first : Option Stmt) (others : List Stmt) :
    relabeling.stmts (first.toList ++ others) =
      (first.map relabeling.stmt).toList ++ relabeling.stmts others := by
  cases first <;> rfl

section
variable (move : Move) (eof : Nat) (earlier : List (Located Error))

/-- The productions of statements mirror each other with amounts of fuel. -/
structure StatementsMirror (fuel extra : Nat) : Prop where
  declaration : ∀ {state}, Apart eof state →
    Mirrors move eof earlier (Option.map move.relabeling.stmt) (declaration eof fuel)
      (declaration (move.starts eof) extra) state
  functionDeclaration : ∀ start {state}, Apart eof state →
    Mirrors move eof earlier move.relabeling.stmt (functionDeclaration eof fuel start)
      (functionDeclaration (move.starts eof) extra (move.starts start)) state
  statement : ∀ {state}, Apart eof state →
    Mirrors move eof earlier move.relabeling.stmt (statement eof fuel)
      (statement (move.starts eof) extra) state
  forStatement : ∀ start {state}, Apart eof state →
    Mirrors move eof earlier move.relabeling.stmt (forStatement eof fuel start)
      (forStatement (move.starts eof) extra (move.starts start)) state
  blockBody : ∀ {state}, Apart eof state →
    Mirrors move eof earlier move.relabeling.stmts (blockBody eof fuel)
      (blockBody (move.starts eof) extra) state

end

section
variable {move : Move} {eof : Nat} {earlier : List (Located Error)} {fuel extra : Nat}
  {state : State} (parts : StatementsMirror move eof earlier fuel extra) (apart : Apart eof state)
include parts apart

/-- A declaration is read alike from moved lexemes. -/
theorem declaration_mirrors :
    Mirrors move eof earlier (Option.map move.relabeling.stmt) (declaration eof (fuel + 1))
      (declaration (move.starts eof) (extra + 1)) state := by
  rw [declaration, declaration]
  apply Mirrors.attempt
  apply Mirrors.here
  rw [here_moved]
  apply Mirrors.accept apart
  · intro middle apart
    exact parts.functionDeclaration _ apart
  simp only [Bool.false_eq_true, if_false]
  apply Mirrors.accept apart
  · intro middle apart
    exact variableDeclaration_mirrors fuel extra apart _
  · exact parts.statement apart

/-- A function declaration is read alike from moved lexemes. -/
theorem functionDeclaration_mirrors (start : Nat) :
    Mirrors move eof earlier move.relabeling.stmt (functionDeclaration eof (fuel + 1) start)
      (functionDeclaration (move.starts eof) (extra + 1) (move.starts start)) state := by
  simp only [functionDeclaration, discard_bind]
  apply (expectName_mirrors "function name" apart).bind
  intro name middle apart
  apply (expect_mirrors .leftParen apart).bind
  intro opening middle apart
  -- With and without parameters the declaration goes on to its body.
  have closing (given : List Name) (middle : State) (apart : Apart eof middle) :
      Mirrors move eof earlier move.relabeling.stmt
        (do
          let _ ← expect eof .rightParen
          let _ ← expect eof .leftBrace
          let body ← blockBody eof fuel
          let span ← spanFrom start
          return Stmt.function span name given body)
        (do
          let _ ← expect (move.starts eof) .rightParen
          let _ ← expect (move.starts eof) .leftBrace
          let body ← blockBody (move.starts eof) extra
          let span ← spanFrom (move.starts start)
          return Stmt.function span (move.relabeling.located name)
            (given.map move.relabeling.located) body)
        middle := by
    apply (expect_mirrors .rightParen apart).bind
    intro paren middle apart
    apply (expect_mirrors .leftBrace apart).bind
    intro brace middle apart
    apply (parts.blockBody apart).bind
    intro body last apart
    exact .spanFrom (.pure apart)
  apply Mirrors.isNext
  split
  next => exact .step (pure_apply [] middle) (pure_apply [] _) (closing [] middle apart)
  next =>
    apply (parameters_mirrors fuel extra apart 0).bind
    intro given last apart
    exact closing given last apart

/-- A statement is read alike from moved lexemes. -/
theorem statement_mirrors :
    Mirrors move eof earlier move.relabeling.stmt (statement eof (fuel + 1))
      (statement (move.starts eof) (extra + 1)) state := by
  simp only [statement, discard_bind]
  apply Mirrors.here
  rw [here_moved]
  apply Mirrors.peek?
  split
  next next =>
    apply Mirrors.takeSymbol apart next
    intro keyword middle apart
    exact parts.forStatement _ apart
  next next =>
    apply Mirrors.takeSymbol apart next
    intro keyword middle apart
    apply (condition_mirrors fuel extra apart).bind
    intro test middle apart
    apply (parts.statement apart).bind
    intro consequent middle apart
    -- With and without an alternative the statement ends with its last part.
    have closing (alternative : Option Stmt) (last : State) (apart : Apart eof last) :
        Mirrors move eof earlier move.relabeling.stmt
          (do
            let span ← spanFrom (state.here eof).start
            return Stmt.branch span test consequent alternative)
          (do
            let span ← spanFrom (move.starts (state.here eof).start)
            return Stmt.branch span (move.relabeling.expr test)
              (move.relabeling.stmt consequent) (alternative.map move.relabeling.stmt))
          last := by
      apply Mirrors.spanFrom
      rw [← Relabeling.stmt_branch]
      exact .pure apart
    apply Mirrors.accept apart
    · intro middle apart
      have other : Mirrors move eof earlier (Option.map move.relabeling.stmt)
          (some <$> statement eof fuel) (some <$> statement (move.starts eof) extra) middle :=
        (parts.statement apart).mapSome
      apply other.bind
      intro alternative last apart
      exact closing alternative last apart
    · exact .step (pure_apply none middle) (pure_apply none _) (closing none middle apart)
  next next =>
    apply Mirrors.takeSymbol apart next
    intro keyword middle apart
    apply ((expressionsMirror move eof earlier fuel extra).expression apart).bind
    intro value middle apart
    apply (expect_mirrors .semicolon apart).bind
    intro sign last apart
    exact .spanFrom (.pure apart)
  next next =>
    apply Mirrors.takeSymbol apart next
    intro keyword middle apart
    apply (expressionUnless_mirrors fuel extra apart .semicolon).bind
    intro value middle apart
    apply (expect_mirrors .semicolon apart).bind
    intro sign last apart
    exact .spanFrom (.pure apart)
  next next =>
    apply Mirrors.takeSymbol apart next
    intro keyword middle apart
    apply (condition_mirrors fuel extra apart).bind
    intro test middle apart
    apply (parts.statement apart).bind
    intro body last apart
    exact .spanFrom (.pure apart)
  next next =>
    apply Mirrors.takeSymbol apart next
    intro brace middle apart
    apply (parts.blockBody apart).bind
    intro body last apart
    exact .spanFrom (.pure apart)
  next => exact expressionStatement_mirrors fuel extra apart

/-- A counting loop is read alike from moved lexemes. -/
theorem forStatement_mirrors (start : Nat) :
    Mirrors move eof earlier move.relabeling.stmt (forStatement eof (fuel + 1) start)
      (forStatement (move.starts eof) (extra + 1) (move.starts start)) state := by
  simp only [forStatement, discard_bind]
  apply (expect_mirrors .leftParen apart).bind
  intro opening middle apart
  apply (loopStart_mirrors fuel extra apart).bind
  intro initial middle apart
  apply (expressionUnless_mirrors fuel extra apart .semicolon).bind
  intro test middle apart
  apply (expect_mirrors .semicolon apart).bind
  intro separator middle apart
  apply (expressionUnless_mirrors fuel extra apart .rightParen).bind
  intro step middle apart
  apply (expect_mirrors .rightParen apart).bind
  intro closing middle apart
  apply (parts.statement apart).bind
  intro body last apart
  apply Mirrors.spanFrom
  rw [← forLoop_relabel]
  exact .pure apart

/-- The body of a block is read alike from moved lexemes. -/
theorem blockBody_mirrors :
    Mirrors move eof earlier move.relabeling.stmts (blockBody eof (fuel + 1))
      (blockBody (move.starts eof) (extra + 1)) state := by
  simp only [blockBody, discard_bind]
  apply Mirrors.isNext
  apply Mirrors.atEnd
  split
  next =>
    apply (expect_mirrors .rightBrace apart).bind
    intro brace last apart
    exact .pure apart
  next =>
    apply (parts.declaration apart).bind
    intro first middle apart
    apply (parts.blockBody apart).bind
    intro others last apart
    rw [← stmts_toList_append]
    exact .pure apart

end

/-- Statements mirror each other with any amounts of fuel. -/
theorem statementsMirror (move : Move) (eof : Nat) (earlier : List (Located Error))
    (fuel extra : Nat) : StatementsMirror move eof earlier fuel extra := by
  induction fuel generalizing extra with
  | zero =>
      exact ⟨fun _ => .outOfFuel_left, fun _ _ _ => .outOfFuel_left, fun _ => .outOfFuel_left,
        fun _ _ _ => .outOfFuel_left, fun _ => .outOfFuel_left⟩
  | succ fuel ih =>
      cases extra with
      | zero =>
          exact ⟨fun _ => .outOfFuel_right, fun _ _ _ => .outOfFuel_right,
            fun _ => .outOfFuel_right, fun _ _ _ => .outOfFuel_right, fun _ => .outOfFuel_right⟩
      | succ extra =>
          have parts := ih extra
          exact ⟨declaration_mirrors parts,
            fun start _ apart => functionDeclaration_mirrors parts apart start,
            statement_mirrors parts, fun start _ apart => forStatement_mirrors parts apart start,
            blockBody_mirrors parts⟩

/-- A program is read alike wherever its lexemes stand. -/
theorem program_mirrors {move : Move} {eof : Nat} {earlier : List (Located Error)} :
    ∀ fuel extra {state}, Apart eof state →
      Mirrors move eof earlier move.relabeling.stmts (program eof fuel)
        (program (move.starts eof) extra) state
  | 0, _, _, _ => .outOfFuel_left
  | _ + 1, 0, _, _ => .outOfFuel_right
  | fuel + 1, extra + 1, state, apart => by
      rw [program, program]
      apply Mirrors.atEnd
      split
      next => exact .pure apart
      next =>
        apply ((statementsMirror move eof earlier fuel extra).declaration apart).bind
        intro first middle apart
        apply (program_mirrors fuel extra apart).bind
        intro others last apart
        rw [← stmts_toList_append]
        exact .pure apart

/-- A text whose lexemes are moved is read to the moved statements and the moved errors, behind
earlier ones. -/
theorem parseLexemes_moved (move : Move) {eof : Nat} {lexemes : List Lexeme}
    (apart : ∀ lexeme ∈ lexemes, lexeme.span ≠ .empty eof) (begins : move.stops 0 = 0)
    (counts : move.first = 0) (errors earlier : List (Located Error)) :
    parseLexemes (move.starts eof) (lexemes.map move.lexeme)
        (earlier ++ errors.map (move.error eof)) =
      ⟨move.relabeling.stmts (parseLexemes eof lexemes errors).program,
        earlier ++ (parseLexemes eof lexemes errors).errors.map (move.error eof)⟩ := by
  obtain ⟨stmts, last, read, -⟩ := program_reads eof lexemes errors.toArray
  obtain ⟨others, after, also, -⟩ := program_reads (move.starts eof) (lexemes.map move.lexeme)
    (earlier ++ errors.map (move.error eof)).toArray
  have mirrors : Mirrors move eof earlier move.relabeling.stmts (program eof (enoughFuel lexemes))
      (program (move.starts eof) (enoughFuel (lexemes.map move.lexeme)))
      ⟨lexemes, 0, 0, errors.toArray⟩ := program_mirrors _ _ apart
  have start : move.state eof earlier ⟨lexemes, 0, 0, errors.toArray⟩ =
      ⟨lexemes.map move.lexeme, 0, 0, (earlier ++ errors.map (move.error eof)).toArray⟩ := by
    simp only [Move.state, begins, counts]
  unfold Mirrors at mirrors
  rw [start, read, also] at mirrors
  obtain ⟨-, rfl, rfl⟩ := mirrors
  unfold parseLexemes EStateM.run
  rw [read, also]
  simp [Move.state]

/-- The move that leaves everything where it is. -/
def still : Move := ⟨id, id, 0⟩

/-- The move that moves nothing keeps all labels. -/
theorem still_relabeling : still.relabeling = .identity := by
  simp [Move.relabeling, still, Relabeling.identity, Function.id_def]

theorem still_lexeme : still.lexeme = id := rfl

theorem still_error (eof : Nat) : still.error eof = id := by
  funext error
  unfold Move.error
  split
  next ends => exact congrArg (Located.mk error.item) ends.symm
  next => rfl

/-- Earlier errors do not matter for what is read. -/
theorem parseLexemes_errors {eof : Nat} {lexemes : List Lexeme}
    (apart : ∀ lexeme ∈ lexemes, lexeme.span ≠ .empty eof) (earlier : List (Located Error)) :
    parseLexemes eof lexemes earlier =
      ⟨(parseLexemes eof lexemes []).program, earlier ++ (parseLexemes eof lexemes []).errors⟩ := by
  have moved := parseLexemes_moved still apart rfl rfl [] earlier
  simp only [still_relabeling, Relabeling.stmts_identity, still_lexeme, still_error, List.map_id,
    List.map_nil, List.append_nil] at moved
  exact moved

end Lox.Parser
