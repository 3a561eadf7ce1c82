import Lox.Proofs.Syntax.ExpressionSentences
import Lox.Proofs.Syntax.StatementForms

namespace Lox.Parser

open Lox.Computation Grammar

/-- The symbols that a statement can start with. -/
def opensStatement : Option Symbol → Bool
  | some .for | some .if | some .print | some .return | some .while | some .leftBrace => true
  | next => opensExpression next

/-- The symbols that a declaration can start with. -/
def opensDeclaration : Option Symbol → Bool
  | some .fun | some .var => true
  | next => opensStatement next

/-- What opens an expression opens a statement. -/
theorem opensStatement_of_expression (next : Option Symbol) (opens : opensExpression next = true) :
    opensStatement next = true := by
  unfold opensStatement
  split
  all_goals first | rfl | exact opens

/-- What opens a statement opens a declaration. -/
theorem opensDeclaration_of_statement (next : Option Symbol)
    (opens : opensStatement next = true) : opensDeclaration next = true := by
  unfold opensDeclaration
  split
  all_goals first | rfl | exact opens

theorem variableDeclaration_opens {first next : Nat} {lexemes : List Lexeme} {stmt : Stmt}
    (form : VariableDeclaration first lexemes stmt next) :
    ∃ keyword rest, lexemes = keyword :: rest ∧ Spells .var keyword := by
  obtain ⟨opens, -, -⟩ := form
  exact ⟨_, _, rfl, opens⟩

theorem expressionStatement_opens {first next : Nat} {lexemes : List Lexeme} {stmt : Stmt}
    (form : ExpressionStatement first lexemes stmt next) : Opens opensExpression lexemes := by
  obtain ⟨evaluated, -⟩ := form
  exact (expression_opens evaluated).append

theorem statement_opens {attachment : Attachment} {first next : Nat} {lexemes : List Lexeme}
    {stmt : Stmt} {dangling : Bool} (form : Statement attachment first lexemes stmt dangling next) :
    Opens opensStatement lexemes := by
  cases form with
  | expression evaluated =>
      exact (expressionStatement_opens evaluated).weaken opensStatement_of_expression
  | forLoop opens | branch opens | alternative opens | print opens | giveBack opens | loop opens
  | block opens =>
      exact ⟨_, _, rfl, by rw [symbol?_eq_some.2 opens]; rfl⟩

theorem declaration_opens {attachment : Attachment} {first next : Nat} {lexemes : List Lexeme}
    {stmt : Stmt} (form : Declaration attachment first lexemes stmt next) :
    Opens opensDeclaration lexemes := by
  cases form with
  | function opens => exact ⟨_, _, rfl, by rw [symbol?_eq_some.2 opens]; rfl⟩
  | «variable» declared =>
      obtain ⟨keyword, rest, rfl, opens⟩ := variableDeclaration_opens declared
      exact ⟨_, _, rfl, by rw [symbol?_eq_some.2 opens]; rfl⟩
  | statement stated => exact (statement_opens stated).weaken opensDeclaration_of_statement

/-- No `else` follows a declaration inside a list of them. -/
theorem declarations_ne_else {attachment : Attachment} {first next : Nat}
    {lexemes rest : List Lexeme} {stmts : List Stmt}
    (form : Declarations attachment first lexemes stmts next)
    (free : leading rest ≠ some .else) : leading (lexemes ++ rest) ≠ some .else := by
  cases form with
  | none => exact free
  | more declared => exact (declaration_opens declared).append.leading_ne rfl rest

section
variable {eof fuel stop first next : Nat} {lexemes rest : List Lexeme}

/-- Parameters within the limit are read as they are. -/
theorem parameters_accepts {length : Nat} {names : List Name} (form : Parameters lexemes names)
    (short : length + names.length ≤ listLimit) (closes : leading rest = some .rightParen) :
    Accepts (parameters eof fuel length) stop first lexemes names first rest := by
  induction fuel generalizing stop length lexemes names with
  | zero => exact .outOfFuel
  | succ fuel ih =>
      rw [parameters]
      refine .look (.checkLength ?_) ?_
      · cases form <;> (rw [List.length_cons] at short; omega)
      cases form with
      | last =>
          refine .step .expectName (.look (.decline ?_) .pure)
          rw [List.nil_append, closes]
          decide
      | more separated parameters =>
          refine .step .expectName (.step (.accept separated) (.done (ih parameters ?_) .pure))
          rw [List.length_cons] at short
          omega

/-- Parameters do not start with a closing parenthesis. -/
theorem parameters_ne_rightParen {names : List Name} (form : Parameters lexemes names) :
    leading (lexemes ++ rest) ≠ some .rightParen := by
  cases form <;> exact nofun

/-- What follows a condition goes on behind its closing parenthesis. -/
theorem condition_accepts {opening closing : Lexeme} {others : List Lexeme} {test : Expr}
    {last : Nat} {stmt : Stmt} {follow : Expr → Production Stmt}
    (opens : Spells .leftParen opening) (tests : Expression first lexemes test next)
    (closes : Spells .rightParen closing)
    (goes : Accepts (follow test) closing.span.stop next others stmt last rest) :
    Accepts (condition eof fuel >>= follow) stop first (opening :: (lexemes ++ closing :: others))
      stmt last rest := by
  have expressions := expressionsAccepted eof fuel
  have inside : Accepts (condition eof fuel) stop first (opening :: (lexemes ++ [closing])) test
      next (others ++ rest) := by
    simp only [condition, discard_bind]
    refine .step (.expect opens) (.bind (expressions.expression tests (.rightParen closes)) ?_)
    exact .done (.expect closes) .pure
  have whole : Accepts (condition eof fuel >>= follow) stop first
      ((opening :: (lexemes ++ [closing])) ++ others) stmt last rest := by
    refine .bind inside ?_
    rw [endOf_cons, endOf_append]
    exact goes
  simpa using whole

/-- A sentence is read as the variable's declaration that it is. -/
theorem variableDeclaration_accepts {keyword : Lexeme} {stmt : Stmt}
    (form : VariableDeclaration first (keyword :: lexemes) stmt next) :
    Accepts (variableDeclaration eof fuel keyword.span.start) keyword.span.stop first lexemes stmt
      next rest := by
  cases form with
  | declare opens initializer closes =>
      rw [extent_cons, endOf_cons, endOf_append]
      simp only [variableDeclaration, discard_bind]
      refine .step .expectName ?_
      cases initializer with
      | none =>
          refine .look (.decline ?_) (.look .pure (.done (.expect closes) (.look .spanFrom .pure)))
          rw [List.nil_append, List.cons_append, leading_cons, symbol?_eq_some.2 closes]
          decide
      | some sign value =>
          have expressions := expressionsAccepted eof fuel
          refine .step (.accept sign) ?_
          refine .bind (.map some (expressions.expression value (.semicolon closes))) ?_
          exact .done (.expect closes) (.look .spanFrom .pure)

/-- A sentence is read as the expression statement that it is. -/
theorem expressionStatement_accepts {stmt : Stmt}
    (form : ExpressionStatement first lexemes stmt next) :
    Accepts (expressionStatement eof fuel) stop first lexemes stmt next rest := by
  cases form with
  | evaluate evaluated closes =>
      obtain ⟨lexeme, others, rfl, -⟩ := expression_opens evaluated
      rw [List.cons_append, extent_cons, endOf_append]
      simp only [expressionStatement, discard_bind]
      have expressions := expressionsAccepted eof fuel
      refine .look .here (.bind (expressions.expression evaluated (.semicolon closes)) ?_)
      exact .done (.expect closes) (.look .spanFrom .pure)

theorem loopStart_accepts {initial : Option Stmt} (form : LoopStart first lexemes initial next) :
    Accepts (loopStart eof fuel) stop first lexemes initial next rest := by
  rw [loopStart]
  cases form with
  | none closes => exact .step (.accept closes) .pure
  | «variable» declared =>
      obtain ⟨keyword, others, rfl, opens⟩ := variableDeclaration_opens declared
      refine .look (.decline ?_) (.look .isNext ?_)
      · rw [List.cons_append, leading_cons, symbol?_eq_some.2 opens]
        decide
      rw [List.cons_append, leading_cons, decide_eq_true (symbol?_eq_some.2 opens)]
      exact .step .take (.map some (variableDeclaration_accepts declared))
  | expression evaluated =>
      have opens := expressionStatement_opens evaluated
      refine .look (.decline (opens.leading_ne rfl rest)) (.look .isNext ?_)
      rw [decide_eq_false (opens.leading_ne rfl rest)]
      exact .map some (expressionStatement_accepts evaluated)

theorem expressionUnless_accepts {closing : Symbol} {given : Option Expr}
    (form : OptionalExpression first lexemes given next) (closes : leading rest = some closing)
    (ends : Closes (some closing)) (other : opensExpression (some closing) = false) :
    Accepts (expressionUnless eof fuel closing) stop first lexemes given next rest := by
  rw [expressionUnless]
  refine .look .isNext ?_
  cases form with
  | none =>
      rw [List.nil_append, decide_eq_true closes]
      exact .pure
  | some given =>
      rw [decide_eq_false ((expression_opens given).leading_ne other rest)]
      exact .map some ((expressionsAccepted eof fuel).expression given (closes ▸ ends))

end

/-- The productions of statements accept the sentences of their parts of the grammar. -/
structure StatementsAccepted (eof fuel : Nat) : Prop where
  declaration {stop first next : Nat} {lexemes rest : List Lexeme} {stmt : Stmt}
    (form : Declaration .nearest first lexemes stmt next) (free : leading rest ≠ some .else) :
    Accepts (declaration eof fuel) stop first lexemes (some stmt) next rest
  functionDeclaration {keyword : Lexeme} {first next : Nat} {lexemes rest : List Lexeme}
    {stmt : Stmt} (form : Declaration .nearest first (keyword :: lexemes) stmt next)
    (opens : Spells .fun keyword) :
    Accepts (functionDeclaration eof fuel keyword.span.start) keyword.span.stop first lexemes stmt
      next rest
  statement {stop first next : Nat} {lexemes rest : List Lexeme} {stmt : Stmt} {dangling : Bool}
    (form : Statement .nearest first lexemes stmt dangling next)
    (free : dangling = true → leading rest ≠ some .else) :
    Accepts (statement eof fuel) stop first lexemes stmt next rest
  forStatement {keyword : Lexeme} {first next : Nat} {lexemes rest : List Lexeme} {stmt : Stmt}
    {dangling : Bool} (form : Statement .nearest first (keyword :: lexemes) stmt dangling next)
    (opens : Spells .for keyword) (free : dangling = true → leading rest ≠ some .else) :
    Accepts (forStatement eof fuel keyword.span.start) keyword.span.stop first lexemes stmt next
      rest
  blockBody {stop first next : Nat} {closing : Lexeme} {lexemes rest : List Lexeme}
    {stmts : List Stmt} (form : Declarations .nearest first lexemes stmts next)
    (closes : Spells .rightBrace closing) :
    Accepts (blockBody eof fuel) stop first (lexemes ++ [closing]) stmts next rest

/-- A statement that is accepted needs no recovery. -/
theorem attempt_accepts {production : Production Stmt} {stop first next : Nat}
    {lexemes rest : List Lexeme} {stmt : Stmt}
    (accepts : Accepts production stop first lexemes stmt next rest) :
    Accepts (attempt production) stop first lexemes (some stmt) next rest := by
  intro errors
  unfold attempt
  rcases accepts errors with given | ⟨last, out⟩
  · rw [given]
    exact .inl rfl
  · rw [out]
    exact .inr ⟨last, rfl⟩

section
variable {eof fuel stop first next : Nat} {lexemes rest : List Lexeme}
  (parts : StatementsAccepted eof fuel)
include parts

/-- A sentence is read as the declaration that it is, if no `else` follows. -/
theorem declaration_accepts {stmt : Stmt} (form : Declaration .nearest first lexemes stmt next)
    (free : leading rest ≠ some .else) :
    Accepts (declaration eof (fuel + 1)) stop first lexemes (some stmt) next rest := by
  have whole := form
  rw [declaration]
  refine attempt_accepts ?_
  cases form with
  | function opens => exact .look .here (.step (.accept opens) (parts.functionDeclaration whole opens))
  | «variable» declared =>
      obtain ⟨keyword, others, rfl, opens⟩ := variableDeclaration_opens declared
      refine .look .here (.look (.decline ?_) ?_)
      · rw [List.cons_append, leading_cons, symbol?_eq_some.2 opens]
        decide
      · exact .step (.accept opens) (variableDeclaration_accepts declared)
  | statement stated =>
      have opens := statement_opens stated
      have starts : ∃ lexeme others, lexemes = lexeme :: others := by
        obtain ⟨lexeme, others, same, -⟩ := opens
        exact ⟨lexeme, others, same⟩
      obtain ⟨lexeme, others, rfl⟩ := starts
      refine .look .here (.look (.decline (opens.leading_ne rfl rest)) ?_)
      refine .look (.decline (opens.leading_ne rfl rest)) ?_
      exact parts.statement stated fun _ => free

/-- A sentence is read as the function that it is. -/
theorem functionDeclaration_accepts {keyword : Lexeme} {stmt : Stmt}
    (form : Declaration .nearest first (keyword :: lexemes) stmt next)
    (opens : Spells .fun keyword) :
    Accepts (functionDeclaration eof (fuel + 1) keyword.span.start) keyword.span.stop first lexemes
      stmt next rest := by
  cases form with
  | «variable» declared =>
      obtain ⟨keyword, others, same, other⟩ := variableDeclaration_opens declared
      cases same
      exact nomatch opens.symm.trans other
  | statement stated =>
      exact absurd (symbol?_eq_some.2 opens) ((statement_opens stated).leading_ne rfl [])
  | function _ listOpens parameters listCloses bodyOpens declarations bodyCloses =>
      rw [extent_cons]
      simp only [functionDeclaration, discard_bind, endOf_cons, endOf_append, endOf_nil]
      refine .step .expectName (.step (.expect listOpens) (.look .isNext ?_))
      cases parameters with
      | none =>
          rw [List.nil_append, List.cons_append, leading_cons,
            decide_eq_true (symbol?_eq_some.2 listCloses)]
          refine .look .pure (.step (.expect listCloses) (.step (.expect bodyOpens) ?_))
          refine .done (parts.blockBody declarations bodyCloses) (.look .spanFrom ?_)
          rw [endOf_append]
          exact .pure
      | some parameters short =>
          rw [List.append_assoc, decide_eq_false (parameters_ne_rightParen parameters)]
          refine .bind (parameters_accepts parameters ?_ (symbol?_eq_some.2 listCloses)) ?_
          · rwa [Nat.zero_add]
          refine .step (.expect listCloses) (.step (.expect bodyOpens) ?_)
          refine .done (parts.blockBody declarations bodyCloses) (.look .spanFrom ?_)
          rw [endOf_append]
          exact .pure

/-- A sentence is read as the `for` loop that it is. -/
theorem forStatement_accepts {keyword : Lexeme} {stmt : Stmt} {dangling : Bool}
    (form : Statement .nearest first (keyword :: lexemes) stmt dangling next)
    (opens : Spells .for keyword) (free : dangling = true → leading rest ≠ some .else) :
    Accepts (forStatement eof (fuel + 1) keyword.span.start) keyword.span.stop first lexemes stmt
      next rest := by
  cases form with
  | expression evaluated =>
      exact absurd (symbol?_eq_some.2 opens)
        ((expressionStatement_opens evaluated).leading_ne rfl [])
  | branch other | alternative other | print other | giveBack other | loop other | block other =>
      exact nomatch opens.symm.trans other
  | forLoop _ partsOpen starts tests separates steps partsClose repeated =>
      rw [extent_cons, ← forLoop_eq_countingLoop]
      simp only [forStatement, discard_bind, endOf_cons, endOf_append]
      refine .step (.expect partsOpen) (.bind (loopStart_accepts starts) ?_)
      refine .bind (expressionUnless_accepts tests (symbol?_eq_some.2 separates)
        (.inr (.inl rfl)) rfl) ?_
      refine .step (.expect separates) ?_
      refine .bind (expressionUnless_accepts steps (symbol?_eq_some.2 partsClose) (.inl rfl) rfl) ?_
      refine .step (.expect partsClose) ?_
      exact .done (parts.statement repeated free) (.look .spanFrom .pure)

/-- Declarations and a closing brace are read as the block that they are. -/
theorem blockBody_accepts {closing : Lexeme} {stmts : List Stmt}
    (form : Declarations .nearest first lexemes stmts next) (closes : Spells .rightBrace closing) :
    Accepts (blockBody eof (fuel + 1)) stop first (lexemes ++ [closing]) stmts next rest := by
  simp only [blockBody, discard_bind]
  refine .look .isNext (.look .atEnd ?_)
  cases form with
  | none =>
      rw [List.nil_append, List.cons_append, leading_cons,
        decide_eq_true (symbol?_eq_some.2 closes)]
      exact .done (.expect closes) .pure
  | more declared declarations =>
      have opens := declaration_opens declared
      have free : leading ([closing] ++ rest) ≠ some .else := by
        rw [List.cons_append, leading_cons, symbol?_eq_some.2 closes]
        decide
      obtain ⟨lexeme, others, same, -⟩ := id opens
      simp only [List.append_assoc]
      rw [decide_eq_false (opens.leading_ne rfl _), same, if_neg (by simp), ← same]
      refine .bind (parts.declaration declared ?_) (.done (parts.blockBody declarations closes) .pure)
      rw [List.append_assoc]
      exact declarations_ne_else declarations free

/-- A sentence is read as the statement that it is, if no `else` could be taken by it. -/
theorem statement_accepts {stmt : Stmt} {dangling : Bool}
    (form : Statement .nearest first lexemes stmt dangling next)
    (free : dangling = true → leading rest ≠ some .else) :
    Accepts (statement eof (fuel + 1)) stop first lexemes stmt next rest := by
  have expressions := expressionsAccepted eof fuel
  have whole := form
  simp only [statement, discard_bind]
  cases form with
  | forLoop opens =>
      refine .look .here (.look .peek ?_)
      rw [List.cons_append, leading_cons, symbol?_eq_some.2 opens]
      exact .step .take (parts.forStatement whole opens free)
  | branch opens testOpens tests testCloses chosen =>
      refine .look .here (.look .peek ?_)
      rw [List.cons_append, leading_cons, symbol?_eq_some.2 opens]
      refine .step .take (condition_accepts testOpens tests testCloses ?_)
      refine .done (parts.statement chosen fun _ => free rfl) ?_
      refine .look (.decline (free rfl)) (.look .pure (.look .spanFrom ?_))
      rw [extent_cons, endOf_cons, endOf_append]
      exact .pure
  | alternative opens testOpens tests testCloses chosen belongs divides refused =>
      refine .look .here (.look .peek ?_)
      rw [List.cons_append, leading_cons, symbol?_eq_some.2 opens]
      refine .step .take (condition_accepts testOpens tests testCloses ?_)
      refine .bind (parts.statement chosen ?_) ?_
      · intro open_
        exact absurd open_ (by rw [belongs rfl]; decide)
      refine .step (.accept divides) (.done (.map some (parts.statement refused free)) ?_)
      refine .look .spanFrom ?_
      rw [extent_cons, endOf_cons, endOf_append, endOf_cons, endOf_append, endOf_cons]
      exact .pure
  | print opens printed closes =>
      refine .look .here (.look .peek ?_)
      rw [List.cons_append, leading_cons, symbol?_eq_some.2 opens, extent_cons, endOf_append]
      refine .step .take (.bind (expressions.expression printed (.semicolon closes)) ?_)
      exact .done (.expect closes) (.look .spanFrom .pure)
  | giveBack opens given closes =>
      refine .look .here (.look .peek ?_)
      rw [List.cons_append, leading_cons, symbol?_eq_some.2 opens, extent_cons, endOf_append]
      refine .step .take (.bind (expressionUnless_accepts given (symbol?_eq_some.2 closes)
        (.inr (.inl rfl)) rfl) ?_)
      exact .done (.expect closes) (.look .spanFrom .pure)
  | loop opens testOpens tests testCloses repeated =>
      refine .look .here (.look .peek ?_)
      rw [List.cons_append, leading_cons, symbol?_eq_some.2 opens]
      refine .step .take (condition_accepts testOpens tests testCloses ?_)
      refine .done (parts.statement repeated free) (.look .spanFrom ?_)
      rw [extent_cons, endOf_cons, endOf_append]
      exact .pure
  | block opens declarations closes =>
      refine .look .here (.look .peek ?_)
      rw [List.cons_append, leading_cons, symbol?_eq_some.2 opens, extent_cons]
      exact .step .take (.done (parts.blockBody declarations closes) (.look .spanFrom .pure))
  | expression evaluated =>
      have starts := expressionStatement_opens evaluated
      obtain ⟨lexeme, others, rfl, -⟩ := id starts
      refine .look .here (.look .peek ?_)
      have accepts : Accepts (expressionStatement eof fuel) stop first (lexeme :: others) stmt next
        rest := expressionStatement_accepts evaluated
      split
      next next => exact absurd next (starts.leading_ne rfl rest)
      next next => exact absurd next (starts.leading_ne rfl rest)
      next next => exact absurd next (starts.leading_ne rfl rest)
      next next => exact absurd next (starts.leading_ne rfl rest)
      next next => exact absurd next (starts.leading_ne rfl rest)
      next next => exact absurd next (starts.leading_ne rfl rest)
      next => exact accepts

end

/-- Statements are accepted with any amount of fuel. -/
theorem statementsAccepted (eof fuel : Nat) : StatementsAccepted eof fuel := by
  induction fuel with
  | zero =>
      exact ⟨fun _ _ => .outOfFuel, fun _ _ => .outOfFuel, fun _ _ => .outOfFuel,
        fun _ _ _ => .outOfFuel, fun _ _ => .outOfFuel⟩
  | succ fuel parts =>
      exact ⟨declaration_accepts parts, functionDeclaration_accepts parts, statement_accepts parts,
        forStatement_accepts parts, blockBody_accepts parts⟩

/-- A program of the grammar is accepted up to the end of the text. -/
theorem program_accepts {eof fuel stop first next : Nat} {lexemes : List Lexeme}
    {stmts : List Stmt} (form : Declarations .nearest first lexemes stmts next) :
    Accepts (program eof fuel) stop first lexemes stmts next [] := by
  induction fuel generalizing stop first lexemes stmts with
  | zero => exact .outOfFuel
  | succ fuel ih =>
      rw [program]
      refine .look .atEnd ?_
      cases form with
      | none => exact .pure
      | more declared declarations =>
          obtain ⟨lexeme, others, same, -⟩ := (declaration_opens declared)
          rw [List.append_assoc, same, if_neg (by simp), ← same]
          refine .bind ((statementsAccepted eof fuel).declaration declared ?_)
            (.done (ih declarations) .pure)
          exact declarations_ne_else declarations (by simp [leading])

end Lox.Parser
